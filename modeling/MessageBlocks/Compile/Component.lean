import MessageBlocks.Compile.Composition
import MessageBlocks.Payload.Component

/-!
# Components of a tree

The interactive component that an element stands for. A choice is selected at
first if it says so itself or if its value is named by the menu.
-/

namespace MessageBlocks

namespace Element

variable {W : Type} [Width W]

def int? (element : Element) (name : String) : Option Int :=
  (element.float? name).map Number.toInt64Clamped

def isMultiple (element : Element) : Bool :=
  element.isSet "multiple"

/-- What a menu selects at first. A menu of one choice takes the first of them. -/
def selection {α : Type} (element : Element) (initial : List α) : Selection α :=
  if element.isMultiple then .several initial (element.int? "maxSelectedItems")
  else .one initial.head?

/-- The options of a menu: those in its groups if it has groups, its own if not. -/
def menuOptions (element : Element) : List Element :=
  let groups := element.childrenOf .optionGroup
  if groups.isEmpty then element.childrenOf .option else groups.flatMap (·.childrenOf .option)

def selectedValues (element : Element) : List String :=
  if element.isMultiple then element.listAttribute "value" else (element.literal? "value").toList

/-- Whether a choice is selected at first, by an attribute of its own or by its
value. -/
def isChosen (element : Element) (flag : String) (values : List String) : Bool :=
  element.isSet flag || values.contains element.choiceValue

def staticSelect (element : Element) : Control :=
  let groups := element.childrenOf .optionGroup
  let chosen := element.menuOptions.filter (·.isChosen "selected" element.selectedValues)
  .staticSelect (element.literal? "placeholder")
    (if groups.isEmpty then .flat (element.menuOptions.map option)
      else .grouped (groups.map optionGroup))
    (element.selection (chosen.map option))

/-- The menu whose options come from elsewhere. Options in the tree are its
initial selection. -/
def externalSelect (element : Element) : Control :=
  .externalSelect (element.literal? "placeholder") (element.int? "minQueryLength")
    (element.selection ((element.childrenOf .option).map option))

/-- The menu of entities of one kind, with the attribute that selects some. -/
def entitySelect (element : Element) (entity : Entity) (name : String) : Control :=
  .entitySelect entity (element.literal? "placeholder")
    (element.selection
      (if element.isMultiple then element.listAttribute name else (element.literal? name).toList))
    (if entity = .conversation then element.bool? "defaultToCurrentConversation" else none)

/-- The picker of dates or times, with the attribute that picks one at first. -/
def picker (element : Element) (kind : PickerKind) (name : String) : Control :=
  .picker kind (element.literal? "placeholder") (element.firstLiteral? [name, "value"])

/-- The choices of the children with a tag, and those among them that are chosen. -/
def labelledChoices (element : Element) (tag : Tag) (values : List String) :
    Query W (List Choice × List Choice) := do
  let children := element.childrenOf tag
  let choices ← children.mapM labelledChoice
  let chosen := (children.zip choices).filter fun pair => pair.1.isChosen "checked" values
  return (choices, chosen.map Prod.snd)

def checkboxes (element : Element) : Query W Control := do
  let (choices, chosen) ← element.labelledChoices .checkbox (element.listAttribute "values")
  return .checkboxes choices chosen

def radioButtons (element : Element) : Query W Control := do
  let (choices, chosen) ←
    element.labelledChoices .radioButton (element.literal? "value").toList
  return .radioButtons choices chosen.head?

/-- The input for text. Its content is its initial value. -/
def textInput (element : Element) : Control :=
  let content := element.plainText
  .textInput (element.literal? "placeholder")
    ((element.literal? "value").or (if content.isEmpty then none else some content))
    (element.int? "maxLength") (element.int? "minLength")

/-- The control that an element with a tag stands for. -/
def control? (element : Element) : Tag → Option (Query W Control)
  | .button =>
      some (pure (.button element.plainText (element.literal? "value") (element.literal? "url")
        (element.literal? "style") (element.literal? "accessibilityLabel")))
  | .select => some (pure element.staticSelect)
  | .externalSelect => some (pure element.externalSelect)
  | .usersSelect => some (pure (element.entitySelect .user "initialUser"))
  | .conversationsSelect => some (pure (element.entitySelect .conversation "initialConversation"))
  | .channelsSelect => some (pure (element.entitySelect .channel "initialChannel"))
  | .overflow =>
      some (pure (.overflow ((element.childrenOf .overflowItem).map overflowChoice)))
  | .datePicker => some (pure (element.picker .date "initialDate"))
  | .timePicker => some (pure (element.picker .time "initialTime"))
  | .checkboxGroup => some element.checkboxes
  | .radioButtonGroup => some element.radioButtons
  | .textarea => some (pure element.textInput)
  | _ => none

/-- The component that an element stands for, if it is interactive. -/
def component? (element : Element) : Query W (Option Component) :=
  match element.tag?.bind element.control? with
  | none => pure none
  | some control => do
      let control ← control
      let confirmation ← element.confirmation?
      return some ⟨control, element.actionId?, confirmation⟩

def components : List Element → Query W (List Component)
  | [] => pure []
  | element :: rest => do
      let component ← element.component?
      let following ← components rest
      return component.toList ++ following

end Element

end MessageBlocks
