import MessageBlocks.Grammar.Tag

/-!
# Rules

The rule of a tag lists the attributes that it accepts and the tags that it may
contain. Groups of tags that are legal in many places are named once. A rule
speaks of tags, so a name and its alias are legal in the same places.
-/

namespace MessageBlocks

/-- The values that an attribute may take. -/
inductive Allowed where
  | any
  | oneOf (literals : List String)
  deriving DecidableEq, Repr

/-- Whether a value is allowed, judged by its literal. -/
def Allowed.permits : Allowed → AttributeValue → Bool
  | .any, _ => true
  | .oneOf literals, value => literals.contains value.literal

/-- What a tag accepts. -/
structure Rule where
  attributes : List (String × Allowed)
  children : List Tag
  deriving DecidableEq, Repr

namespace Grammar

def surfaces : List Tag :=
  [.blocks, .modal, .home]

def layoutBlocks : List Tag :=
  [.sectionBlock, .divider, .image, .header, .actions, .context, .input, .file]

/-- The interactive components that may stand outside an input. -/
def components : List Tag :=
  [.button, .select, .externalSelect, .usersSelect, .conversationsSelect, .channelsSelect,
    .overflow, .datePicker, .timePicker, .checkboxGroup, .radioButtonGroup]

def inlineMarkup : List Tag :=
  [.text, .link, .bold, .italic, .strike, .code, .lineBreak, .time]

def blockMarkup : List Tag :=
  [.paragraph, .blockquote, .preformatted, .unorderedList, .orderedList]

def markup : List Tag :=
  inlineMarkup ++ blockMarkup

def anyValue (names : List String) : List (String × Allowed) :=
  names.map (·, .any)

def buttonStyles : Allowed :=
  .oneOf ["primary", "danger"]

def listNumbering : Allowed :=
  .oneOf ["1", "a", "A", "i", "I"]

def blockNames : List String :=
  ["blockId", "id"]

def actionNames : List String :=
  ["actionId", "name"]

/-- The attributes of a menu that may allow several choices. -/
def menuNames : List String :=
  actionNames ++ ["placeholder", "multiple", "maxSelectedItems"]

def viewNames : List String :=
  ["callbackId", "privateMetadata", "externalId"]

end Grammar

open Grammar

def Tag.rule : Tag → Rule
  | top => ⟨[], surfaces⟩
  | text => ⟨[], []⟩
  | blocks => ⟨[], layoutBlocks⟩
  | modal =>
      ⟨anyValue (viewNames ++ ["title", "submit", "close", "clearOnClose", "notifyOnClose"]),
        layoutBlocks.erase .file⟩
  | home => ⟨anyValue viewNames, layoutBlocks.erase .file⟩
  | sectionBlock => ⟨anyValue blockNames, markup ++ [.field, .mrkdwn] ++ components ++ [.image]⟩
  | field => ⟨[], markup⟩
  | mrkdwn => ⟨anyValue ["verbatim", "raw"], markup⟩
  | divider => ⟨anyValue blockNames, []⟩
  | image => ⟨anyValue (blockNames ++ ["src", "alt", "title"]), []⟩
  | header => ⟨anyValue blockNames, [.text]⟩
  | actions => ⟨anyValue blockNames, components⟩
  | context => ⟨anyValue blockNames, markup ++ [.image, .mrkdwn]⟩
  | input =>
      ⟨anyValue (blockNames ++ ["label", "hint", "optional", "dispatchAction"]),
        (components.erase .button).erase .overflow ++ [.textarea]⟩
  | file =>
      ⟨anyValue (blockNames ++ ["externalId"]) ++ [("source", .oneOf ["remote"])], []⟩
  | button =>
      ⟨anyValue (actionNames ++ ["value", "url", "accessibilityLabel"]) ++
        [("style", buttonStyles)], [.text, .confirm]⟩
  | select => ⟨anyValue (menuNames ++ ["value"]), [.option, .optionGroup, .confirm]⟩
  | externalSelect => ⟨anyValue (menuNames ++ ["minQueryLength"]), [.option, .confirm]⟩
  | usersSelect => ⟨anyValue (menuNames ++ ["initialUser"]), [.confirm]⟩
  | conversationsSelect =>
      ⟨anyValue (menuNames ++ ["initialConversation", "defaultToCurrentConversation"]),
        [.confirm]⟩
  | channelsSelect => ⟨anyValue (menuNames ++ ["initialChannel"]), [.confirm]⟩
  | overflow => ⟨anyValue actionNames, [.overflowItem, .confirm]⟩
  | datePicker =>
      ⟨anyValue (actionNames ++ ["placeholder", "initialDate", "value"]), [.confirm]⟩
  | timePicker =>
      ⟨anyValue (actionNames ++ ["placeholder", "initialTime", "value"]), [.confirm]⟩
  | checkboxGroup => ⟨anyValue (actionNames ++ ["values"]), [.checkbox, .confirm]⟩
  | radioButtonGroup => ⟨anyValue (actionNames ++ ["value"]), [.radioButton, .confirm]⟩
  | textarea =>
      ⟨anyValue (actionNames ++ ["placeholder", "value", "maxLength", "minLength"]), [.text]⟩
  | confirm => ⟨anyValue ["title", "confirm", "deny"] ++ [("style", buttonStyles)], markup⟩
  | option => ⟨anyValue ["value", "selected", "description"], [.text]⟩
  | optionGroup => ⟨anyValue ["label"], [.option]⟩
  | overflowItem => ⟨anyValue ["value", "url"], [.text]⟩
  | checkbox | radioButton => ⟨anyValue ["value", "checked", "description"], inlineMarkup⟩
  | bold => ⟨[], inlineMarkup.erase .bold⟩
  | italic => ⟨[], inlineMarkup.erase .italic⟩
  | strike => ⟨[], inlineMarkup.erase .strike⟩
  | code => ⟨[], inlineMarkup.erase .code⟩
  | link => ⟨anyValue ["href"], inlineMarkup.erase .link⟩
  | time => ⟨anyValue ["datetime", "fallback"], [.text]⟩
  | lineBreak => ⟨[], []⟩
  | paragraph => ⟨[], inlineMarkup⟩
  | blockquote => ⟨[], markup.erase .blockquote⟩
  | preformatted => ⟨[], [.text, .link, .lineBreak]⟩
  | unorderedList => ⟨[], [.listItem]⟩
  | orderedList => ⟨anyValue ["start"] ++ [("type", listNumbering)], [.listItem]⟩
  | listItem => ⟨anyValue ["value"], markup⟩

namespace Rule

/-- What a rule says about an attribute, if it accepts it. -/
def attribute? (rule : Rule) (name : String) : Option Allowed :=
  rule.attributes.lookup name

/-- Whether a rule allows a child with a given type name. -/
def allowsChild (rule : Rule) (name : String) : Bool :=
  match Tag.ofName? name with
  | some tag => rule.children.contains tag
  | none => false

/-- The type names of the children that a rule allows, sorted. -/
def childNames (rule : Rule) : List String :=
  (rule.children.flatMap Tag.names).mergeSort (· ≤ ·)

end Rule

namespace Grammar

/-- The rule for a type name. Text has no rule, since it is no element. -/
def rule? (name : String) : Option Rule :=
  match Tag.ofName? name with
  | some .text | none => none
  | some tag => some tag.rule

def elementNames : List String :=
  ((Tag.all.filter fun tag => tag != .top && tag != .text).flatMap Tag.names).mergeSort (· ≤ ·)

end Grammar

end MessageBlocks
