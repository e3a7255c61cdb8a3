import MessageBlocks.Json.Basic

/-!
# Composition objects

The parts that blocks and components share: texts, choices and confirmation
dialogs. Each has one JSON form, in which absent fields are left out.
-/

namespace MessageBlocks

/-- A text of a payload: plain, or in the markup of the chat client. -/
inductive TextObject where
  | plain (text : String)
  | mrkdwn (text : String) (verbatim : Option Bool)
  deriving DecidableEq, Repr

namespace TextObject

def toJson : TextObject → Json
  | plain text => .ofFields [("type", some (.string "plain_text")), ("text", some (.string text))]
  | mrkdwn text verbatim =>
      .ofFields [("type", some (.string "mrkdwn")), ("text", some (.string text)),
        ("verbatim", verbatim.map .bool)]

end TextObject

def plainField (text : Option String) : Option Json :=
  text.map fun text => (TextObject.plain text).toJson

/-- A choice of a menu or a group of buttons. -/
structure Choice where
  text : TextObject
  value : String
  description : Option String
  url : Option String
  deriving DecidableEq, Repr

namespace Choice

def toJson (choice : Choice) : Json :=
  .ofFields [("text", some choice.text.toJson), ("value", some (.string choice.value)),
    ("description", plainField choice.description), ("url", choice.url.map .string)]

end Choice

/-- A group of choices under a label. -/
structure ChoiceGroup where
  label : String
  choices : List Choice
  deriving DecidableEq, Repr

namespace ChoiceGroup

def toJson (group : ChoiceGroup) : Json :=
  .ofFields [("label", plainField (some group.label)),
    ("options", some (.array (group.choices.map Choice.toJson)))]

end ChoiceGroup

/-- A dialog that asks before an action is taken. -/
structure Confirmation where
  title : Option String
  text : String
  accept : Option String
  deny : Option String
  style : Option String
  deriving DecidableEq, Repr

namespace Confirmation

def toJson (confirmation : Confirmation) : Json :=
  .ofFields [("title", plainField confirmation.title),
    ("text", some (TextObject.mrkdwn confirmation.text none).toJson),
    ("confirm", plainField confirmation.accept), ("deny", plainField confirmation.deny),
    ("style", confirmation.style.map .string)]

end Confirmation

end MessageBlocks
