import MessageBlocks.Grammar.Rule
import MessageBlocks.Grammar.Violation

/-!
# Validation

A tree is walked depth first, and at each element its type, its place, its
attributes and then its children are checked. The first check that fails is the
answer.
-/

namespace MessageBlocks

/-- Check one attribute against the rule of its element. Null is no value. -/
def checkAttribute (rule : Rule) (kind : String) (location : Location)
    (name : String) (value : AttributeValue) : Except Violation Unit :=
  match rule.attribute? name with
  | none => .error (.invalidAttribute kind name location)
  | some .any => .ok ()
  | some (.oneOf literals) =>
      if value.isNull || (Allowed.oneOf literals).permits value then .ok ()
      else .error (.invalidAttributeValue kind name value.literal literals location)

def checkAttributes (rule : Rule) (kind : String) (location : Location) :
    List (String × AttributeValue) → Except Violation Unit
  | [] => .ok ()
  | (name, value) :: rest => do
      checkAttribute rule kind location name value
      checkAttributes rule kind location rest

/-- Check the type name of an element and its place under a parent. The answer is
the rule of the element. -/
def checkPlace (parent : String) (parentRule : Rule) (kind : String) (location : Location) :
    Except Violation Rule :=
  match Grammar.rule? kind with
  | none => .error (.unknownType kind location)
  | some rule =>
      if parentRule.allowsChild kind then .ok rule
      else .error (.invalidChild parent kind location)

mutual

/-- Check a child at a given position. Blank text may stand anywhere. -/
def Node.check (parent : String) (parentRule : Rule) (location : Location) (index : Nat) :
    Node → Except Violation Unit
  | .text content =>
      if Text.isBlankText content.toList || parentRule.allowsChild textKind then .ok ()
      else .error (.invalidChild parent textKind (location.child textKind index))
  | .element element =>
      Element.check parent parentRule (location.child element.kind index) element

def Element.check (parent : String) (parentRule : Rule) (location : Location) :
    Element → Except Violation Unit
  | ⟨kind, attributes, children⟩ => do
      let rule ← checkPlace parent parentRule kind location
      checkAttributes rule kind location attributes.entries
      Node.checkAll kind rule location 0 children

/-- Check the children of an element from a given position on. -/
def Node.checkAll (parent : String) (parentRule : Rule) (location : Location) (index : Nat) :
    List Node → Except Violation Unit
  | [] => .ok ()
  | node :: rest => do
      Node.check parent parentRule location index node
      Node.checkAll parent parentRule location (index + 1) rest

end

/-- The name under which the place above the root appears in messages. -/
def topName : String :=
  "!top"

def Element.validate (root : Element) : Except Violation Unit :=
  Element.check topName Tag.top.rule ⟨root.kind, []⟩ root

end MessageBlocks
