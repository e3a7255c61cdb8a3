/-!
# Violations

A violation is the first place where a tree breaks the grammar. It carries the
location of the offending node, so that its message can be shown to the author
of the tree as it is.
-/

namespace MessageBlocks

/-- One step down a tree: the type name of a child and its position among all
children. -/
structure Step where
  kind : String
  index : Nat
  deriving DecidableEq, Repr

/-- The place of a node: the type name of the root and the steps down from it. -/
structure Location where
  root : String
  steps : List Step
  deriving DecidableEq, Repr

namespace Location

def child (location : Location) (kind : String) (index : Nat) : Location :=
  ⟨location.root, location.steps ++ [⟨kind, index⟩]⟩

/-- The text of a location, such as `Blocks > Section[0] > b[1]`. -/
def text (location : Location) : String :=
  location.root ++
    String.join (location.steps.map fun step =>
      " > " ++ step.kind ++ "[" ++ toString step.index ++ "]")

end Location

/-- How a tree breaks the grammar. -/
inductive Violation where
  | unknownType (kind : String) (location : Location)
  | invalidChild (parent child : String) (location : Location)
  | invalidAttribute (kind name : String) (location : Location)
  | invalidAttributeValue (kind name value : String) (allowed : List String)
      (location : Location)
  deriving DecidableEq, Repr

namespace Violation

def location : Violation → Location
  | unknownType _ location | invalidChild _ _ location | invalidAttribute _ _ location
  | invalidAttributeValue _ _ _ _ location => location

def message : Violation → String
  | unknownType kind location => "unknown node type <" ++ kind ++ "> at " ++ location.text
  | invalidChild parent child location =>
      "<" ++ child ++ "> is not allowed as a child of <" ++ parent ++ "> at " ++ location.text
  | invalidAttribute kind name location =>
      "<" ++ kind ++ "> does not accept attribute \"" ++ name ++ "\" at " ++ location.text
  | invalidAttributeValue kind name value allowed location =>
      "<" ++ kind ++ "> attribute \"" ++ name ++ "\" cannot be \"" ++ value ++
        "\" (expected one of: " ++ ", ".intercalate allowed ++ ") at " ++ location.text

end Violation

end MessageBlocks
