import MessageBlocks.Markup.OfTree
import MessageBlocks.Markup.Render
import MessageBlocks.Payload.Composition

/-!
# Composition objects of a tree

The texts, choices and dialogs that elements of the tree stand for. Texts in the
markup of the client are queries to the layout engine; plain texts are not.
-/

namespace MessageBlocks

/-- The items of a list separated by commas, without the blank characters around
them and without empty items. -/
def Text.listItems (text : List Char) : List (List Char) :=
  ((text.splitOn ',').map Text.trim).filter (!·.isEmpty)

namespace Element

variable {W : Type} [Width W]

/-- The name under which a block can be referred to. -/
def blockId? (element : Element) : Option String :=
  element.firstLiteral? ["blockId", "id"]

/-- The name under which the actions of a component are reported. -/
def actionId? (element : Element) : Option String :=
  element.firstLiteral? ["actionId", "name"]

/-- The items of an attribute that holds a list. -/
def listAttribute (element : Element) (name : String) : List String :=
  match element.literal? name with
  | some text => (Text.listItems text.toList).map String.ofList
  | none => []

def plainText (element : Element) : String :=
  String.ofList (Markup.plainText (Node.markup element.children))

/-- The text of an element in the markup of the client. -/
def mrkdwn (element : Element) : Query W String :=
  String.ofList <$> Markup.render (Node.markup element.children)

/-- The text of an element that holds explicit markup, verbatim if it says so. -/
def explicitText (element : Element) : Query W TextObject := do
  let text ←
    if element.isSet "raw" then pure (String.ofList (Node.rawTexts element.children))
    else element.mrkdwn
  return .mrkdwn text (element.bool? "verbatim")

def confirmation (element : Element) : Query W Confirmation := do
  let text ← element.mrkdwn
  return {
    title := element.literal? "title"
    text := text
    accept := element.literal? "confirm"
    deny := element.literal? "deny"
    style := element.literal? "style" }

def confirmation? (element : Element) : Query W (Option Confirmation) :=
  match (element.childrenOf .confirm).head? with
  | some child => some <$> child.confirmation
  | none => pure none

/-- The value of a choice, which is its text unless it has one of its own. -/
def choiceValue (element : Element) : String :=
  (element.literal? "value").getD element.plainText

/-- The choice of a menu that an option stands for. -/
def option (element : Element) : Choice where
  text := .plain element.plainText
  value := element.choiceValue
  description := element.literal? "description"
  url := none

/-- The group of choices that a group of options stands for. -/
def optionGroup (element : Element) : ChoiceGroup where
  label := (element.literal? "label").getD ""
  choices := (element.childrenOf .option).map option

def overflowChoice (element : Element) : Choice where
  text := .plain element.plainText
  value := element.choiceValue
  description := none
  url := element.literal? "url"

/-- The choice of a check box or a radio button, whose label may have markup. -/
def labelledChoice (element : Element) : Query W Choice := do
  let text ← element.mrkdwn
  return {
    text := .mrkdwn text none
    value := element.choiceValue
    description := element.literal? "description"
    url := none }

end Element

end MessageBlocks
