import MessageBlocks.Grammar.Validation
import MessageBlocks.Proofs.Tree.Numbers

/-!
# Spellings

A boolean or number may be written as the string of its literal, at any attribute of a tree. In the
spelled form of a tree all values are strings, other than nulls, which are no values. Trees that
differ only in such strings have the same spelled form, every reading of an attribute is the same
in it, and the checker gives the same answer, down to the violation.
-/

namespace MessageBlocks

open Number

namespace AttributeValue

/-- A value is kept, or replaced by the string of its literal unless it is null. -/
def Respelled (old new : AttributeValue) : Prop :=
  new = old ∨ old.isNull = false ∧ new = .string old.literal

/-- The value as a string, with null as it is. -/
def spelled : AttributeValue → AttributeValue
  | .null => .null
  | .bool value => .string (AttributeValue.bool value).literal
  | .number value => .string (AttributeValue.number value).literal
  | .string value => .string value

theorem Respelled.spelled_eq {old new : AttributeValue} (respelled : old.Respelled new) :
    old.spelled = new.spelled := by
  rcases respelled with rfl | ⟨isValue, rfl⟩
  · rfl
  · cases old with
    | null => cases isValue
    | bool value => rfl
    | number value => rfl
    | string value => rfl

@[simp]
theorem literal_spelled (value : AttributeValue) : value.spelled.literal = value.literal := by
  cases value <;> rfl

@[simp]
theorem isNull_spelled (value : AttributeValue) : value.spelled.isNull = value.isNull := by
  cases value <;> rfl

/-- No number is written like a boolean. -/
theorem bool?_numberText (value : Float) :
    (AttributeValue.string (String.ofList (numberText value))).bool? = none := by
  have notWord {word : String} (notNumber : readFloat? (Text.trim word.toList) = none) :
      String.ofList (numberText value) ≠ word := by
    rintro rfl
    obtain ⟨read, isNumber, -⟩ := exists_read_numberText value
    rw [String.toList_ofList, isNumber] at notNumber
    cases notNumber
  unfold bool?
  split
  · next isBool => cases isBool
  · next trueWord => exact absurd (AttributeValue.string.inj trueWord) (notWord rfl)
  · next falseWord => exact absurd (AttributeValue.string.inj falseWord) (notWord rfl)
  · rfl

@[simp]
theorem bool?_spelled (value : AttributeValue) : value.spelled.bool? = value.bool? := by
  cases value with
  | null => rfl
  | bool value => cases value <;> rfl
  | number value => exact bool?_numberText value
  | string value => rfl

/-- Readings of a number that depend on the integer it stands for only. -/
theorem float?_spelled (value : AttributeValue) :
    value.spelled.float?.map toInt64Clamped = value.float?.map toInt64Clamped ∧
      value.spelled.float?.bind Markup.listNumber? = value.float?.bind Markup.listNumber? := by
  cases value with
  | null => exact ⟨rfl, rfl⟩
  | bool value => cases value <;> exact ⟨rfl, rfl⟩
  | number value =>
      obtain ⟨read, isNumber, clamped, listed⟩ := exists_read_numberText value
      have spelledRead : (AttributeValue.number value).spelled.float? = some read := by
        rw [spelled, float?, literal, String.toList_ofList, isNumber]
      rw [spelledRead, float?]
      exact ⟨congrArg some clamped, listed⟩
  | string value => exact ⟨rfl, rfl⟩

end AttributeValue

namespace Attributes

/-- The same names, with values of which some are respelled. -/
def Respelled (old new : Attributes) : Prop :=
  List.Forall₂ (fun old new => old.1 = new.1 ∧ old.2.Respelled new.2) old.entries new.entries

/-- The attributes with all their values as strings. -/
def spelled (attributes : Attributes) : Attributes where
  entries := attributes.entries.map fun entry => (entry.1, entry.2.spelled)
  sorted := by
    rw [Keyed.Sorted, List.pairwise_map]
    exact attributes.sorted

theorem Respelled.spelled_eq {old new : Attributes} (respelled : old.Respelled new) :
    old.spelled = new.spelled := by
  obtain ⟨oldEntries, oldSorted⟩ := old
  obtain ⟨newEntries, newSorted⟩ := new
  have entries : oldEntries.map (fun entry => (entry.1, entry.2.spelled)) =
      newEntries.map fun entry => (entry.1, entry.2.spelled) := by
    change List.Forall₂ _ oldEntries newEntries at respelled
    clear oldSorted newSorted
    induction respelled with
    | nil => rfl
    | cons head _ ih => rw [List.map_cons, List.map_cons, head.1, head.2.spelled_eq, ih]
  simp only [spelled, entries]

theorem Respelled.insert {old new : Attributes} (respelled : old.Respelled new) (name : String)
    {value other : AttributeValue} (same : value.Respelled other) :
    (old.insert name value).Respelled (new.insert name other) := by
  obtain ⟨oldEntries, oldSorted⟩ := old
  obtain ⟨newEntries, newSorted⟩ := new
  change List.Forall₂ _ oldEntries newEntries at respelled
  change List.Forall₂ _ (Keyed.insert name value oldEntries) (Keyed.insert name other newEntries)
  clear oldSorted newSorted
  induction respelled with
  | nil => exact .cons ⟨rfl, same⟩ .nil
  | cons head following ih =>
      rw [Keyed.insert, Keyed.insert, ← head.1]
      split
      · exact .cons ⟨rfl, same⟩ (.cons head following)
      · split
        · exact .cons ⟨rfl, same⟩ following
        · exact .cons head ih

theorem find?_spelled (attributes : Attributes) (name : String) :
    attributes.spelled.find? name = (attributes.find? name).map AttributeValue.spelled := by
  simp only [find?, spelled]
  induction attributes.entries with
  | nil => rfl
  | cons entry rest ih =>
      rw [List.map_cons, Keyed.find?, Keyed.find?]
      split
      · rfl
      · exact ih

theorem get?_spelled (attributes : Attributes) (name : String) :
    attributes.spelled.get? name = (attributes.get? name).map AttributeValue.spelled := by
  rw [get?, find?_spelled, get?, Option.filter_map]
  simp [Function.comp_def]

end Attributes

/-- `old.Respelled new`: the nodes differ at most in the values of attributes, at any places, for
which the second has the strings of their literals. -/
inductive Node.Respelled : Node → Node → Prop where
  | text (content : String) : Respelled (.text content) (.text content)
  | element {kind : String} {attributes others : Attributes} {children nodes : List Node}
      (values : attributes.Respelled others) (below : List.Forall₂ Respelled children nodes) :
      Respelled (.element ⟨kind, attributes, children⟩) (.element ⟨kind, others, nodes⟩)

def Element.Respelled (old new : Element) : Prop :=
  Node.Respelled (.element old) (.element new)

mutual

def Node.spelled : Node → Node
  | .text content => .text content
  | .element element => .element (Element.spelled element)

/-- The tree with all values of attributes as strings. -/
def Element.spelled : Element → Element
  | ⟨kind, attributes, children⟩ => ⟨kind, attributes.spelled, Node.allSpelled children⟩

def Node.allSpelled : List Node → List Node
  | [] => []
  | node :: rest => Node.spelled node :: Node.allSpelled rest

end

mutual

theorem Node.Respelled.spelled_eq {old new : Node} :
    Node.Respelled old new → old.spelled = new.spelled
  | .text content => rfl
  | .element values below => by
      rw [Node.spelled, Element.spelled, Node.spelled, Element.spelled, values.spelled_eq,
        allSpelled_eq below]

theorem Node.Respelled.allSpelled_eq {old new : List Node} :
    List.Forall₂ Node.Respelled old new → Node.allSpelled old = Node.allSpelled new
  | .nil => rfl
  | .cons first following => by
      rw [Node.allSpelled, Node.allSpelled, spelled_eq first, allSpelled_eq following]

end

theorem Element.Respelled.spelled_eq {old new : Element} (respelled : old.Respelled new) :
    old.spelled = new.spelled :=
  Node.element.inj (Node.Respelled.spelled_eq respelled)

theorem Node.allSpelled_eq_map (nodes : List Node) : allSpelled nodes = nodes.map spelled := by
  induction nodes with
  | nil => rfl
  | cons node rest ih => rw [allSpelled, ih, List.map_cons]

/-! Elements that are built in the same steps from respelled parts. -/

namespace Element.Respelled

theorem ofKind (kind : String) : (Element.ofKind kind).Respelled (Element.ofKind kind) :=
  .element .nil .nil

theorem withAttribute {old new : Element} (respelled : old.Respelled new) (name : String)
    {value other : AttributeValue} (same : value.Respelled other) :
    (old.withAttribute name value).Respelled (new.withAttribute name other) := by
  cases respelled with
  | element values below => exact .element (values.insert name same) below

theorem append {old new : Element} (respelled : old.Respelled new) {nodes others : List Node}
    (same : List.Forall₂ Node.Respelled nodes others) :
    (old.append nodes).Respelled (new.append others) := by
  cases respelled with
  | element values below => exact .element values (List.rel_append below same)

end Element.Respelled

/-! The checker looks at values through their literals, and at whether they are null. -/

theorem checkAttribute_spelled (rule : Rule) (kind : String) (location : Location) (name : String)
    (value : AttributeValue) :
    checkAttribute rule kind location name value.spelled =
      checkAttribute rule kind location name value := by
  rw [checkAttribute, checkAttribute]
  cases rule.attribute? name with
  | none => rfl
  | some allowed =>
      cases allowed with
      | any => rfl
      | oneOf literals =>
          have permitted : (Allowed.oneOf literals).permits value.spelled =
              (Allowed.oneOf literals).permits value := by
            rw [Allowed.permits, Allowed.permits, AttributeValue.literal_spelled]
          dsimp only
          rw [permitted, AttributeValue.literal_spelled, AttributeValue.isNull_spelled]

theorem checkAttributes_spelled (rule : Rule) (kind : String) (location : Location)
    (entries : List (String × AttributeValue)) :
    checkAttributes rule kind location (entries.map fun entry => (entry.1, entry.2.spelled)) =
      checkAttributes rule kind location entries := by
  induction entries with
  | nil => rfl
  | cons entry rest ih =>
      rw [List.map_cons, checkAttributes, checkAttributes, checkAttribute_spelled, ih]

mutual

theorem Node.check_spelled (parent : String) (parentRule : Rule) (location : Location)
    (index : Nat) : ∀ node : Node,
      node.spelled.check parent parentRule location index =
        node.check parent parentRule location index
  | .text content => rfl
  | .element ⟨kind, attributes, children⟩ => by
      rw [Node.spelled, Node.check, Node.check, Element.check_spelled]
      rfl

theorem Element.check_spelled (parent : String) (parentRule : Rule) (location : Location) :
    ∀ element : Element, element.spelled.check parent parentRule location =
      element.check parent parentRule location
  | ⟨kind, attributes, children⟩ => by
      have attributesSame (rule : Rule) := checkAttributes_spelled rule kind location
        attributes.entries
      rw [Element.spelled, Element.check, Element.check]
      simp only [Attributes.spelled, attributesSame, Node.checkAll_allSpelled]

theorem Node.checkAll_allSpelled (parent : String) (parentRule : Rule) (location : Location)
    (index : Nat) : ∀ nodes : List Node,
      Node.checkAll parent parentRule location index (Node.allSpelled nodes) =
        Node.checkAll parent parentRule location index nodes
  | [] => rfl
  | node :: rest => by
      rw [Node.allSpelled, Node.checkAll, Node.checkAll, Node.check_spelled,
        Node.checkAll_allSpelled]

end

theorem Element.validate_spelled (root : Element) : root.spelled.validate = root.validate := by
  have kind : root.spelled.kind = root.kind := by
    cases root
    rfl
  rw [validate, validate, kind, check_spelled]

/-- Spellings make no difference to the checker: it accepts both trees or finds one violation. -/
theorem Element.Respelled.validate_eq {old new : Element} (respelled : old.Respelled new) :
    old.validate = new.validate := by
  rw [← validate_spelled old, respelled.spelled_eq, validate_spelled new]

end MessageBlocks
