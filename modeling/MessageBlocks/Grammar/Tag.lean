import MessageBlocks.Tree.Element

/-!
# Tags

A tag is a node type of the grammar. Some tags have more than one name in a
tree: a component name and the name of the corresponding HTML element. Two tags
never name an element of a valid tree: `top` stands above the root, and `text`
is the type of text between elements.
-/

namespace MessageBlocks

/-- The node types of the grammar. -/
inductive Tag where
  | top | text
  | blocks | modal | home
  | sectionBlock | divider | image | header | actions | context | input | file
  | field | mrkdwn
  | button | select | externalSelect | usersSelect | conversationsSelect | channelsSelect
  | overflow | datePicker | timePicker | checkboxGroup | radioButtonGroup | textarea
  | option | optionGroup | overflowItem | checkbox | radioButton | confirm
  | bold | italic | strike | code | link | time | lineBreak
  | paragraph | blockquote | preformatted | unorderedList | orderedList | listItem
  deriving DecidableEq, Repr

namespace Tag

def all : List Tag :=
  [top, text, blocks, modal, home,
    sectionBlock, divider, image, header, actions, context, input, file, field, mrkdwn,
    button, select, externalSelect, usersSelect, conversationsSelect, channelsSelect,
    overflow, datePicker, timePicker, checkboxGroup, radioButtonGroup, textarea,
    option, optionGroup, overflowItem, checkbox, radioButton, confirm,
    bold, italic, strike, code, link, time, lineBreak,
    paragraph, blockquote, preformatted, unorderedList, orderedList, listItem]

/-- The names of a tag, the canonical one first. -/
def names : Tag → List String
  | top => ["!top"]
  | text => [textKind]
  | blocks => ["Blocks"]
  | modal => ["Modal"]
  | home => ["Home"]
  | sectionBlock => ["Section", "section"]
  | divider => ["Divider", "hr"]
  | image => ["Image", "img"]
  | header => ["Header", "header"]
  | actions => ["Actions"]
  | context => ["Context"]
  | input => ["Input"]
  | file => ["File"]
  | field => ["Field"]
  | mrkdwn => ["Mrkdwn"]
  | button => ["Button", "button"]
  | select => ["Select", "select"]
  | externalSelect => ["ExternalSelect"]
  | usersSelect => ["UsersSelect"]
  | conversationsSelect => ["ConversationsSelect"]
  | channelsSelect => ["ChannelsSelect"]
  | overflow => ["Overflow"]
  | datePicker => ["DatePicker"]
  | timePicker => ["TimePicker"]
  | checkboxGroup => ["CheckboxGroup"]
  | radioButtonGroup => ["RadioButtonGroup"]
  | textarea => ["Textarea", "textarea"]
  | option => ["Option", "option"]
  | optionGroup => ["Optgroup", "optgroup"]
  | overflowItem => ["OverflowItem"]
  | checkbox => ["Checkbox"]
  | radioButton => ["RadioButton"]
  | confirm => ["Confirm"]
  | bold => ["b", "strong"]
  | italic => ["i", "em"]
  | strike => ["s", "strike", "del"]
  | code => ["code"]
  | link => ["a"]
  | time => ["time"]
  | lineBreak => ["br"]
  | paragraph => ["p"]
  | blockquote => ["blockquote"]
  | preformatted => ["pre"]
  | unorderedList => ["ul"]
  | orderedList => ["ol"]
  | listItem => ["li"]

def ofName? (name : String) : Option Tag :=
  all.find? (·.names.contains name)

/-- Whether a tag is an interactive component: legal among actions, beside a
section, or as an input. -/
def isInteractive : Tag → Bool
  | button | select | externalSelect | usersSelect | conversationsSelect | channelsSelect
  | overflow | datePicker | timePicker | checkboxGroup | radioButtonGroup | textarea => true
  | _ => false

/-- Whether a tag is part of running text and has no block of its own. -/
def isMarkup : Tag → Bool
  | text | bold | italic | strike | code | link | time | lineBreak | paragraph | blockquote
  | preformatted | unorderedList | orderedList | listItem => true
  | _ => false

/-- The name of the family of shapes that a tag is compiled to. All markup is one
family, and `top` has none. -/
def family? (tag : Tag) : Option String :=
  match tag with
  | top => none
  | option => some "OptionItem"
  | optionGroup => some "OptionGroup"
  | tag => if tag.isMarkup then some "Markup" else tag.names.head?

end Tag

namespace Element

def tag? (element : Element) : Option Tag :=
  Tag.ofName? element.kind

def childrenOf (element : Element) (tag : Tag) : List Element :=
  element.elements.filter (·.tag? == some tag)

end Element

end MessageBlocks
