import MessageBlocks.Payload.Composition

/-!
# Components

Components are the interactive parts of a payload. A menu lets the reader choose
one thing or several; which of the two decides its type name, the name of its
initial selection and whether a limit is written.
-/

namespace MessageBlocks

/-- How much of a menu may be chosen, and what is chosen at first. -/
inductive Selection (α : Type) where
  | one (initial : Option α)
  | several (initial : List α) (limit : Option Int)
  deriving DecidableEq, Repr

namespace Selection

variable {α : Type}

def typeName (name : String) : Selection α → String
  | one _ => name
  | several _ _ => "multi_" ++ name

/-- The initial selection, under the singular name or its plural. An empty list is
left out. -/
def initialField (name : String) (encode : α → Json) : Selection α → String × Option Json
  | one initial => (name, initial.map encode)
  | several initial _ =>
      (name ++ "s", if initial.isEmpty then none else some (.array (initial.map encode)))

def limitField : Selection α → String × Option Json
  | one _ => ("max_selected_items", none)
  | several _ limit => ("max_selected_items", limit.map .integer)

end Selection

/-- The choices of a menu: a list of their own or in groups. -/
inductive MenuChoices where
  | flat (choices : List Choice)
  | grouped (groups : List ChoiceGroup)
  deriving DecidableEq, Repr

def MenuChoices.field : MenuChoices → String × Option Json
  | flat choices => ("options", some (.array (choices.map Choice.toJson)))
  | grouped groups => ("option_groups", some (.array (groups.map ChoiceGroup.toJson)))

/-- What the client itself offers for selection. -/
inductive Entity where
  | user
  | conversation
  | channel
  deriving DecidableEq, Repr

def Entity.name : Entity → String
  | user => "user"
  | conversation => "conversation"
  | channel => "channel"

/-- What a picker picks. -/
inductive PickerKind where
  | date
  | time
  deriving DecidableEq, Repr

def PickerKind.name : PickerKind → String
  | date => "date"
  | time => "time"

/-- An interactive part without its common fields. -/
inductive Control where
  | button (text : String) (value url style accessibilityLabel : Option String)
  | staticSelect (placeholder : Option String) (choices : MenuChoices)
      (selection : Selection Choice)
  | externalSelect (placeholder : Option String) (minQueryLength : Option Int)
      (selection : Selection Choice)
  | entitySelect (entity : Entity) (placeholder : Option String) (selection : Selection String)
      (defaultToCurrent : Option Bool)
  | overflow (choices : List Choice)
  | picker (kind : PickerKind) (placeholder initial : Option String)
  | checkboxes (choices initial : List Choice)
  | radioButtons (choices : List Choice) (initial : Option Choice)
  | textInput (placeholder initial : Option String) (maxLength minLength : Option Int)
  deriving DecidableEq, Repr

namespace Control

def typeName : Control → String
  | button .. => "button"
  | staticSelect _ _ selection => selection.typeName "static_select"
  | externalSelect _ _ selection => selection.typeName "external_select"
  | entitySelect entity _ selection _ => selection.typeName (entity.name ++ "s_select")
  | overflow _ => "overflow"
  | picker kind _ _ => kind.name ++ "picker"
  | checkboxes _ _ => "checkboxes"
  | radioButtons _ _ => "radio_buttons"
  | textInput .. => "plain_text_input"

/-- The fields of a control that are its own. -/
def fields : Control → List (String × Option Json)
  | button text value url style accessibilityLabel =>
      [("text", plainField (some text)), ("value", value.map .string), ("url", url.map .string),
        ("style", style.map .string), ("accessibility_label", accessibilityLabel.map .string)]
  | staticSelect placeholder choices selection =>
      [("placeholder", plainField placeholder), selection.limitField, choices.field,
        selection.initialField "initial_option" Choice.toJson]
  | externalSelect placeholder minQueryLength selection =>
      [("placeholder", plainField placeholder), selection.limitField,
        ("min_query_length", minQueryLength.map .integer),
        selection.initialField "initial_option" Choice.toJson]
  | entitySelect entity placeholder selection defaultToCurrent =>
      [("placeholder", plainField placeholder), selection.limitField,
        selection.initialField ("initial_" ++ entity.name) .string,
        ("default_to_current_conversation", defaultToCurrent.map .bool)]
  | overflow choices => [("options", some (.array (choices.map Choice.toJson)))]
  | picker kind placeholder initial =>
      [("placeholder", plainField placeholder), ("initial_" ++ kind.name, initial.map .string)]
  | checkboxes choices initial =>
      [("options", some (.array (choices.map Choice.toJson))),
        (Selection.several initial none).initialField "initial_option" Choice.toJson]
  | radioButtons choices initial =>
      [("options", some (.array (choices.map Choice.toJson))),
        (Selection.one initial).initialField "initial_option" Choice.toJson]
  | textInput placeholder initial maxLength minLength =>
      [("placeholder", plainField placeholder), ("initial_value", initial.map .string),
        ("multiline", some (.bool true)), ("max_length", maxLength.map .integer),
        ("min_length", minLength.map .integer)]

end Control

/-- An interactive part with the name under which its actions are reported and the
dialog that confirms them. -/
structure Component where
  control : Control
  actionId : Option String
  confirmation : Option Confirmation
  deriving DecidableEq, Repr

namespace Component

def toJson (component : Component) : Json :=
  .ofFields
    (("type", some (.string component.control.typeName)) ::
      ("action_id", component.actionId.map .string) ::
      component.control.fields ++ [("confirm", component.confirmation.map Confirmation.toJson)])

end Component

end MessageBlocks
