import MessageBlocks.Tree.Attribute

/-!
# Trees of elements

A tree is an element with a type name, attributes and children. A child is
another element or a piece of text. Type names are free here; which of them mean
something is the business of the grammar.
-/

namespace MessageBlocks

mutual

/-- A child of an element. -/
inductive Node where
  | text (content : String)
  | element (element : Element)

/-- An element of the tree. -/
structure Element where
  kind : String
  attributes : Attributes
  children : List Node

end

instance : Inhabited Node where
  default := .text ""

instance : Inhabited Element where
  default := ⟨"", ∅, []⟩

/-- The type name under which text takes part in the grammar. -/
def textKind : String :=
  "#text"

namespace Node

def kind : Node → String
  | .text _ => textKind
  | .element child => child.kind

/-- Whether a node is text without any visible character. -/
def isBlank : Node → Bool
  | .text content => Text.isBlankText content.toList
  | .element _ => false

def element? : Node → Option Element
  | .text _ => none
  | .element child => some child

end Node

namespace Element

def ofKind (kind : String) : Element :=
  ⟨kind, ∅, []⟩

def withAttribute (element : Element) (name : String) (value : AttributeValue) : Element :=
  ⟨element.kind, element.attributes.insert name value, element.children⟩

def append (element : Element) (nodes : List Node) : Element :=
  ⟨element.kind, element.attributes, element.children ++ nodes⟩

/-- The value of an attribute, where null means absent. -/
def get? (element : Element) (name : String) : Option AttributeValue :=
  element.attributes.get? name

def literal? (element : Element) (name : String) : Option String :=
  (element.get? name).map AttributeValue.literal

/-- The text of the first attribute present among several names. -/
def firstLiteral? (element : Element) (names : List String) : Option String :=
  names.findSome? element.literal?

def bool? (element : Element) (name : String) : Option Bool :=
  (element.get? name).bind AttributeValue.bool?

def isSet (element : Element) (name : String) : Bool :=
  (element.bool? name).getD false

def float? (element : Element) (name : String) : Option Float :=
  (element.get? name).bind AttributeValue.float?

def elements (element : Element) : List Element :=
  element.children.filterMap Node.element?

end Element

mutual

/-- The text of a node and everything below it, verbatim. -/
def Node.rawText : Node → List Char
  | .text content => content.toList
  | .element element => Element.rawText element

def Element.rawText : Element → List Char
  | ⟨_, _, children⟩ => Node.rawTexts children

def Node.rawTexts : List Node → List Char
  | [] => []
  | node :: rest => Node.rawText node ++ Node.rawTexts rest

end

end MessageBlocks
