import MessageBlocks.Yaml.Token

/-!
# YAML documents

A document holds scalars, sequences and mappings. A scalar is kept as its text with
its style and its tag, because what it means depends on what is read from it; the tags
of collections mean nothing. A value with an anchor has a number, and an alias stands
for the value with its number, which may contain the alias.
-/

namespace MessageBlocks.Yaml

/-- A value of a document. The entries of a mapping are in the order of the document
and may repeat a key. -/
inductive Node where
  | scalar (style : Style) (tag : Option (List Char)) (text : String)
  | sequence (items : List Node)
  | mapping (entries : List (Node × Node))
  | anchored (number : Nat) (node : Node)
  | alias (number : Nat)
  deriving Inhabited, Repr, BEq

namespace Node

/-- The value of a place where nothing is written. -/
def nothing : Node :=
  .scalar .plain none ""

mutual

/-- The values with a number in a value, in the order in which they start. -/
def numbered : Node → List (Nat × Node)
  | .scalar _ _ _ => []
  | .sequence items => numberedItems items
  | .mapping entries => numberedEntries entries
  | .anchored number node => (number, node) :: numbered node
  | .alias _ => []

/-- The values with a number in the items of a sequence. -/
def numberedItems : List Node → List (Nat × Node)
  | [] => []
  | item :: rest => numbered item ++ numberedItems rest

/-- The values with a number in the entries of a mapping. -/
def numberedEntries : List (Node × Node) → List (Nat × Node)
  | [] => []
  | (key, value) :: rest => numbered key ++ numbered value ++ numberedEntries rest

end

def text? : Node → Option String
  | .scalar _ _ text => some text
  | _ => none

/-- The text of a scalar that is plain, or literal with a given tag. -/
def typedText? (expected : List Char) : Node → Option String
  | .scalar .plain _ text => some text
  | .scalar .literal tag text => if tag = some expected then some text else none
  | _ => none

end Node

/-- A document: its value, and the values with numbers in it, the last one first. -/
structure Document where
  root : Node
  numbered : List (Nat × Node)

namespace Document

def ofRoot (root : Node) : Document :=
  ⟨root, root.numbered.reverse⟩

def empty : Document :=
  ofRoot .nothing

/-- What a value of a document stands for: an alias for the last value that has its
number, and any other value for itself. -/
def valueOf (document : Document) : Node → Node
  | .alias number => (document.numbered.lookup number).getD .nothing
  | .anchored _ node => node
  | node => node

end Document

end MessageBlocks.Yaml
