import MessageBlocks.Calendar.Timestamp
import MessageBlocks.Grammar.Tag
import MessageBlocks.Markup.Numbering

/-!
# Markup of a tree

The children of a text container become markup. Elements that are not markup,
such as images and buttons beside the text, are left out, and a list keeps only
its items.
-/

namespace MessageBlocks

namespace Markup

/-- The number in an attribute of a list. Its fraction is dropped; a number that
does not fit into 64 bits counts as absent. -/
def listNumber? (value : Float) : Option Int64 :=
  match Number.Binary.ofFloat? value with
  | some number =>
      if Number.fitsInt64 number.truncate then some (Int64.ofInt number.truncate) else none
  | none => none

/-- The target of a link, without blank characters around it. -/
def linkTarget? (attributes : Attributes) : Option String :=
  (attributes.get? "href").map fun value => String.ofList (Text.trim value.literal.toList)

def timestamp? (attributes : Attributes) : Option Int64 :=
  (attributes.get? "datetime").bind fun value =>
    (Timestamp.read? value.literal.toList).map Int64.ofInt

/-- The number in an attribute of a list element. -/
def numberAttribute? (attributes : Attributes) (name : String) : Option Int64 :=
  ((attributes.get? name).bind AttributeValue.float?).bind listNumber?

def orderedKind (attributes : Attributes) : ListKind :=
  .ordered
    (((attributes.get? "type").map fun value => Numbering.ofName value.literal).getD .decimal)
    ((numberAttribute? attributes "start").getD 1)

/-- The markup of an element that is no list, given its tag, its attributes and the
markup of its children. -/
def ofElement? (tag : Tag) (attributes : Attributes) (children : List Markup) : Option Markup :=
  match tag with
  | .bold => some (.bold children)
  | .italic => some (.italic children)
  | .strike => some (.strike children)
  | .code => some (.code children)
  | .link => some (.link (linkTarget? attributes) children)
  | .time =>
      some (.time (timestamp? attributes)
        ((attributes.get? "fallback").map AttributeValue.literal) children)
  | .lineBreak => some .lineBreak
  | .paragraph => some (.paragraph children)
  | .blockquote => some (.blockquote children)
  | .preformatted => some (.preformatted children)
  | _ => none

end Markup

mutual

/-- The markup of a node, if it is markup. -/
def Node.markup? : Node → Option Markup
  | .text content => some (.text content)
  | .element ⟨kind, attributes, children⟩ =>
      match Tag.ofName? kind with
      | some .unorderedList => some (.list .unordered (Node.listItems children))
      | some .orderedList =>
          some (.list (Markup.orderedKind attributes) (Node.listItems children))
      | some tag => Markup.ofElement? tag attributes (Node.markup children)
      | none => none

def Node.markup : List Node → List Markup
  | [] => []
  | node :: rest => (Node.markup? node).toList ++ Node.markup rest

def Node.listItem? : Node → Option ListItem
  | .text _ => none
  | .element ⟨kind, attributes, children⟩ =>
      if Tag.ofName? kind = some .listItem then
        some ⟨Markup.numberAttribute? attributes "value", Node.markup children⟩
      else none

def Node.listItems : List Node → List ListItem
  | [] => []
  | node :: rest => (Node.listItem? node).toList ++ Node.listItems rest

end

end MessageBlocks
