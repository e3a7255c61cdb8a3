import MessageBlocks.Payload.Component
import MessageBlocks.Proofs.Json.Parts

/-!
# Regular payloads

Some laws hold of every object of a payload, wherever it stands: nothing is null,
lists that may be left out are not empty, and styles and texts in the markup of
the client are strings. They are proved for each type of payload from its parts.
Which styles and texts occur is left open here; a payload lists them, and its JSON
form has no others.
-/

namespace MessageBlocks

namespace Json

def isNull : Json → Bool
  | null | unreadable => true
  | float value => !value.isFinite
  | _ => false

/-- An object with one of the given type names. -/
def HasType (names : List String) (value : Json) : Prop :=
  ∃ name ∈ names, value.member? "type" = some (.string name)

/-- The laws of every part of a payload, given which texts and which styles may occur. -/
structure Regular (text style : String → Prop) (value : Json) : Prop where
  notNull : value.isNull = false
  fields : ∀ fields, value.member? "fields" = some fields →
    ∃ first rest, fields = .array (first :: rest)
  initialOptions : ∀ options, value.member? "initial_options" = some options →
    ∃ first rest, options = .array (first :: rest)
  styled : ∀ found, value.member? "style" = some found → ∃ name, found = .string name ∧ style name
  marked : value.HasType ["mrkdwn"] →
    ∃ content, value.member? "text" = some (.string content) ∧ text content

variable {text style : String → Prop}

/-- An object made of fields is regular if the fields that the laws name are. -/
theorem regular_ofFields {fields : List (String × Option Json)}
    (nonempty : ∀ found, field? "fields" fields = some found →
      ∃ first rest, found = .array (first :: rest))
    (chosen : ∀ found, field? "initial_options" fields = some found →
      ∃ first rest, found = .array (first :: rest))
    (styled : ∀ found, field? "style" fields = some found →
      ∃ name, found = .string name ∧ style name)
    (marked : field? "type" fields = some (.string "mrkdwn") →
      ∃ content, field? "text" fields = some (.string content) ∧ text content) :
    (ofFields fields).Regular text style where
  notNull := rfl
  fields := by simpa only [member?_ofFields] using nonempty
  initialOptions := by simpa only [member?_ofFields] using chosen
  styled := by simpa only [member?_ofFields] using styled
  marked := by simpa [HasType, member?_ofFields] using marked

theorem regular_of_memberless {value : Json} (notNull : value.isNull = false)
    (memberless : ∀ name, value.member? name = none) : value.Regular text style where
  notNull := notNull
  fields := by simp [memberless]
  initialOptions := by simp [memberless]
  styled := by simp [memberless]
  marked := by simp [HasType, memberless]

@[simp]
theorem everywhere_string (content : String) :
    (string content).Everywhere (Regular text style) :=
  everywhere_leaf rfl (regular_of_memberless rfl fun _ => rfl)

@[simp]
theorem everywhere_bool (value : Bool) : (bool value).Everywhere (Regular text style) :=
  everywhere_leaf rfl (regular_of_memberless rfl fun _ => rfl)

@[simp]
theorem everywhere_integer (value : Int) : (integer value).Everywhere (Regular text style) :=
  everywhere_leaf rfl (regular_of_memberless rfl fun _ => rfl)

theorem everywhere_items {α : Type} {encode : α → Json} {items : List α}
    (below : ∀ item ∈ items, (encode item).Everywhere (Regular text style)) :
    (array (items.map encode)).Everywhere (Regular text style) := by
  apply everywhere_array (regular_of_memberless rfl fun _ => rfl)
  simpa using below

end Json

open Json

variable {text style : String → Prop}

/-- The texts in the markup of the client. -/
def TextObject.texts : TextObject → List String
  | plain _ => []
  | mrkdwn text _ => [text]

theorem TextObject.everywhere_regular (object : TextObject)
    (texts : ∀ content ∈ object.texts, text content) :
    object.toJson.Everywhere (Regular text style) := by
  cases object with
  | plain content =>
      apply everywhere_ofFields
      · apply regular_ofFields <;> simp [field?]
      · simp
  | mrkdwn content verbatim =>
      apply everywhere_ofFields
      · apply regular_ofFields <;> simp [field?]
        exact texts content List.mem_cons_self
      · simp

def Choice.texts (choice : Choice) : List String :=
  choice.text.texts

theorem everywhere_plainField (content : Option String) :
    FieldEverywhere (Regular text style) (plainField content) := by
  rw [plainField, fieldEverywhere_map]
  exact fun value _ => TextObject.everywhere_regular (.plain value) (by simp [TextObject.texts])

theorem Choice.everywhere_regular (choice : Choice)
    (texts : ∀ content ∈ choice.texts, text content) :
    choice.toJson.Everywhere (Regular text style) := by
  apply everywhere_ofFields
  · apply regular_ofFields <;> simp [field?]
  · simpa [everywhere_plainField] using choice.text.everywhere_regular texts

def ChoiceGroup.texts (group : ChoiceGroup) : List String :=
  group.choices.flatMap Choice.texts

theorem ChoiceGroup.everywhere_regular (group : ChoiceGroup)
    (texts : ∀ content ∈ group.texts, text content) :
    group.toJson.Everywhere (Regular text style) := by
  apply everywhere_ofFields
  · apply regular_ofFields <;> simp [field?]
  · have choices : ∀ choice ∈ group.choices, choice.toJson.Everywhere (Regular text style) :=
      fun choice member => choice.everywhere_regular fun content inChoice =>
        texts content (List.mem_flatMap.2 ⟨choice, member, inChoice⟩)
    simpa [everywhere_plainField] using everywhere_items choices

theorem Confirmation.everywhere_regular (confirmation : Confirmation)
    (texts : text confirmation.text)
    (styles : ∀ name, confirmation.style = some name → style name) :
    confirmation.toJson.Everywhere (Regular text style) := by
  apply everywhere_ofFields
  · apply regular_ofFields <;> simp [field?]
    exact styles
  · have question : (TextObject.mrkdwn confirmation.text none).toJson.Everywhere
        (Regular text style) :=
      TextObject.everywhere_regular _ (by simpa [TextObject.texts] using texts)
    simpa [everywhere_plainField] using question

namespace Selection

variable {α : Type}

def initial : Selection α → List α
  | one choice => choice.toList
  | several choices _ => choices

theorem everywhere_initialField (selection : Selection α) (name : String) (encode : α → Json)
    (regular : ∀ choice ∈ selection.initial, (encode choice).Everywhere (Regular text style)) :
    FieldEverywhere (Regular text style) (selection.initialField name encode).2 := by
  cases selection with
  | one choice => simpa [initialField, initial] using regular
  | several choices limit =>
      rw [initialField]
      split
      · simp
      · simpa [initial] using everywhere_items regular

theorem everywhere_limitField (selection : Selection α) :
    FieldEverywhere (Regular text style) selection.limitField.2 := by
  cases selection <;> simp [limitField]

end Selection

/-- The choices of a menu, whether in groups or not. -/
def MenuChoices.choices : MenuChoices → List Choice
  | flat choices => choices
  | grouped groups => groups.flatMap ChoiceGroup.choices

theorem MenuChoices.everywhere_regular (menu : MenuChoices)
    (texts : ∀ choice ∈ menu.choices, ∀ content ∈ choice.texts, text content) :
    FieldEverywhere (Regular text style) menu.field.2 := by
  cases menu with
  | flat choices =>
      have regular : ∀ choice ∈ choices, choice.toJson.Everywhere (Regular text style) :=
        fun choice member => choice.everywhere_regular (texts choice member)
      simpa [field] using everywhere_items regular
  | grouped groups =>
      have regular : ∀ group ∈ groups, group.toJson.Everywhere (Regular text style) := by
        intro group member
        apply group.everywhere_regular
        intro content inGroup
        obtain ⟨choice, choiceMember, inChoice⟩ := List.mem_flatMap.1 inGroup
        exact texts choice (List.mem_flatMap.2 ⟨group, member, choiceMember⟩) content inChoice
      simpa [field] using everywhere_items regular

namespace Control

/-- The choices that a control offers or selects at first. -/
def choices : Control → List Choice
  | staticSelect _ choices selection => choices.choices ++ selection.initial
  | externalSelect _ _ selection => selection.initial
  | overflow choices => choices
  | checkboxes choices initial => choices ++ initial
  | radioButtons choices initial => choices ++ initial.toList
  | _ => []

def style? : Control → Option String
  | button _ _ _ style _ => style
  | _ => none

theorem everywhere_fields (control : Control)
    (texts : ∀ choice ∈ control.choices, ∀ content ∈ choice.texts, text content) :
    ∀ field ∈ control.fields, FieldEverywhere (Regular text style) field.2 := by
  have regular : ∀ choice ∈ control.choices, choice.toJson.Everywhere (Regular text style) :=
    fun choice member => choice.everywhere_regular (texts choice member)
  cases control with
  | button => simp [fields, everywhere_plainField]
  | staticSelect placeholder menu selection =>
      have offered : FieldEverywhere (Regular text style) menu.field.2 :=
        menu.everywhere_regular fun choice member => texts choice (List.mem_append_left _ member)
      have selected := selection.everywhere_initialField "initial_option" Choice.toJson
        fun choice member => regular choice (List.mem_append_right _ member)
      simp [fields, everywhere_plainField, Selection.everywhere_limitField, offered, selected]
  | externalSelect placeholder minimum selection =>
      have selected := selection.everywhere_initialField "initial_option" Choice.toJson regular
      simp [fields, everywhere_plainField, Selection.everywhere_limitField, selected]
  | entitySelect entity placeholder selection toCurrent =>
      have selected : FieldEverywhere (Regular text style)
          (selection.initialField ("initial_" ++ entity.name) string).2 :=
        selection.everywhere_initialField _ _ (by simp)
      simp [fields, everywhere_plainField, Selection.everywhere_limitField, selected]
  | overflow offered => simpa [fields, choices] using everywhere_items regular
  | picker => simp [fields, everywhere_plainField]
  | checkboxes choices initial =>
      have offered := everywhere_items fun choice member =>
        regular choice (List.mem_append_left _ member)
      have selected := (Selection.several initial none).everywhere_initialField "initial_option"
        Choice.toJson fun choice member => regular choice (List.mem_append_right _ member)
      simp [fields, offered, selected]
  | radioButtons choices initial =>
      have offered := everywhere_items fun choice member =>
        regular choice (List.mem_append_left _ member)
      have selected := (Selection.one initial).everywhere_initialField "initial_option"
        Choice.toJson fun choice member => regular choice (List.mem_append_right _ member)
      simp [fields, offered, selected]
  | textInput => simp [fields, everywhere_plainField]

/-- What a field of a control is never called, and what it is when it is called a style or
an initial selection of several choices. -/
structure IsOwnField (style : String → Prop) (field : String × Option Json) : Prop where
  notType : field.1 ≠ "type"
  notFields : field.1 ≠ "fields"
  styled : field.1 = "style" → ∀ found, field.2 = some found →
    ∃ name, found = .string name ∧ style name
  chosen : field.1 = "initial_options" → ∀ found, field.2 = some found →
    ∃ first rest, found = .array (first :: rest)

theorem isOwnField_initialField {α : Type} (selection : Selection α) (encode : α → Json) :
    IsOwnField style (selection.initialField "initial_option" encode) := by
  cases selection with
  | one choice => constructor <;> simp [Selection.initialField]
  | several choices limit => cases choices <;> constructor <;> simp [Selection.initialField]

theorem isOwnField_initialEntity (entity : Entity) (selection : Selection String) :
    IsOwnField style (selection.initialField ("initial_" ++ entity.name) string) := by
  cases entity <;> cases selection <;> constructor <;> simp [Selection.initialField, Entity.name]

theorem isOwnField_limitField {α : Type} (selection : Selection α) :
    IsOwnField style selection.limitField := by
  cases selection <;> constructor <;> simp [Selection.limitField]

theorem isOwnField_choices (menu : MenuChoices) : IsOwnField style menu.field := by
  cases menu <;> constructor <;> simp [MenuChoices.field]

theorem isOwnField_initialPick (kind : PickerKind) (initial : Option String) :
    IsOwnField style ("initial_" ++ kind.name, initial.map string) := by
  cases kind <;> constructor <;> simp [PickerKind.name]

/-- A field whose name the laws do not mention. -/
theorem isOwnField_of_notMem {field : String × Option Json}
    (unmentioned : field.1 ∉ ["type", "fields", "style", "initial_options"]) :
    IsOwnField style field := by
  simp only [List.mem_cons, List.not_mem_nil, or_false, not_or] at unmentioned
  obtain ⟨notType, notFields, notStyle, notInitial⟩ := unmentioned
  exact ⟨notType, notFields, fun same => absurd same notStyle, fun same => absurd same notInitial⟩

theorem isOwnField_fields (control : Control)
    (styles : ∀ name, control.style? = some name → style name) :
    ∀ field ∈ control.fields, IsOwnField style field := by
  have style : IsOwnField style ("style", control.style?.map string) := by
    constructor <;> simp
    exact styles
  cases control <;>
    simp [fields, isOwnField_initialField, isOwnField_initialEntity, isOwnField_limitField,
      isOwnField_choices, isOwnField_initialPick, isOwnField_of_notMem]
  exact style

theorem typeName_ne_mrkdwn (control : Control) : control.typeName ≠ "mrkdwn" := by
  cases control with
  | staticSelect _ _ selection => cases selection <;> simp [typeName, Selection.typeName]
  | externalSelect _ _ selection => cases selection <;> simp [typeName, Selection.typeName]
  | entitySelect entity _ selection _ =>
      cases entity <;> cases selection <;> simp [typeName, Selection.typeName, Entity.name]
  | picker kind _ _ => cases kind <;> simp [typeName, PickerKind.name]
  | _ => simp [typeName]

end Control

namespace Component

def texts (component : Component) : List String :=
  component.control.choices.flatMap Choice.texts ++
    component.confirmation.toList.map Confirmation.text

def styles (component : Component) : List String :=
  component.control.style?.toList ++
    (component.confirmation.bind Confirmation.style).toList

theorem member?_type (component : Component) :
    component.toJson.member? "type" = some (.string component.control.typeName) := by
  have untyped : field? "type" component.control.fields = none :=
    field?_eq_none fun field member =>
      (component.control.isOwnField_fields (fun _ _ => trivial) field member).notType
  simp [toJson, member?_ofFields, field?, field?_append, untyped]

/-- The laws about the fields of a component are about the fields of its control. -/
theorem regular_toJson (component : Component)
    (styles : ∀ name ∈ component.styles, style name) :
    component.toJson.Regular text style := by
  have own : ∀ field ∈ component.control.fields, Control.IsOwnField style field :=
    component.control.isOwnField_fields fun name found =>
      styles name (by simp [Component.styles, found])
  have inControl (name : String) {found : Json}
      (here : component.toJson.member? name = some found)
      (notOuter : name ∉ ["type", "action_id", "confirm"]) :
      (name, some found) ∈ component.control.fields := by
    rw [toJson, member?_ofFields] at here
    have member := mem_of_field?_eq_some here
    simp only [List.mem_cons, List.not_mem_nil, or_false, not_or] at notOuter
    simpa [notOuter] using member
  constructor
  · rfl
  · intro found here
    exact absurd rfl (own _ (inControl "fields" here (by simp))).notFields
  · intro found here
    exact (own _ (inControl "initial_options" here (by simp))).chosen rfl found rfl
  · intro found here
    exact (own _ (inControl "style" here (by simp))).styled rfl found rfl
  · rintro ⟨name, member, typed⟩
    rw [component.member?_type] at typed
    obtain rfl : component.control.typeName = name := by simpa using typed
    exact absurd (List.mem_singleton.1 member) component.control.typeName_ne_mrkdwn

theorem everywhere_regular (component : Component)
    (texts : ∀ content ∈ component.texts, text content)
    (styles : ∀ name ∈ component.styles, style name) :
    component.toJson.Everywhere (Regular text style) := by
  apply everywhere_ofFields (component.regular_toJson styles)
  have fields : ∀ field ∈ component.control.fields,
      FieldEverywhere (Regular text style) field.2 :=
    component.control.everywhere_fields fun choice member content inChoice =>
      texts content (List.mem_append_left _ (List.mem_flatMap.2 ⟨choice, member, inChoice⟩))
  have confirmed : ∀ confirmation, component.confirmation = some confirmation →
      confirmation.toJson.Everywhere (Regular text style) := by
    intro confirmation found
    apply confirmation.everywhere_regular
    · exact texts _ (by simp [Component.texts, found])
    · intro name styled
      exact styles name (by simp [Component.styles, found, styled])
  intro field member
  simp only [List.cons_append, List.mem_cons, List.mem_append, List.not_mem_nil,
    or_false] at member
  rcases member with rfl | rfl | inControl | rfl
  · simp
  · simp
  · exact fields field inControl
  · simpa using confirmed

end Component

end MessageBlocks
