import MessageBlocks.Grammar.Validation
import MessageBlocks.Proofs.Grammar.Names
import MessageBlocks.Proofs.Outcome
import MessageBlocks.Proofs.Tree.Descent
import Mathlib.Data.List.TakeWhile

/-!
# Acceptance

The checker walks a tree and stops at the first violation. What it accepts is
said here without a walk: the root is a surface, and every element that stands
in the tree obeys the rule of its type. The main result is that the checker
accepts exactly these trees.
-/

namespace MessageBlocks

namespace Text

/-- A text is blank exactly when nothing is left of it after trimming. -/
theorem trim_eq_nil_iff {text : List Char} : trim text = [] ↔ isBlankText text = true := by
  rw [trim, trimBy, trimEndBy, trimStartBy, List.reverse_eq_nil_iff, isBlankText,
    List.all_eq_true]
  constructor
  · intro empty
    have middle : ∀ character ∈ text.dropWhile isBlank, isBlank character = true := by
      simpa [List.dropWhile_eq_nil_iff] using empty
    intro character member
    rw [← List.takeWhile_append_dropWhile (p := isBlank) (l := text)] at member
    rcases List.mem_append.1 member with inLead | inMiddle
    · exact List.mem_takeWhile_imp inLead
    · exact middle character inMiddle
  · intro blank
    have nothingLeft : text.dropWhile isBlank = [] := List.dropWhile_eq_nil_iff.2 blank
    simp [nothingLeft]

end Text

/-- An element obeys a rule: every attribute is declared, null or not; a value that is
not null is among the literals of an attribute that lists them; child elements are
of the listed types; and text with a visible character stands only where text is listed. -/
structure Element.Obeys (element : Element) (rule : Rule) : Prop where
  declared : ∀ entry ∈ element.attributes.entries, entry.1 ∈ rule.attributes.map Prod.fst
  permitted : ∀ entry ∈ element.attributes.entries, entry.2.isNull = false →
    ∀ literals, (entry.1, .oneOf literals) ∈ rule.attributes → entry.2.literal ∈ literals
  placed : ∀ child, .element child ∈ element.children → child.kind ∈ rule.childNames
  textual : ∀ content, .text content ∈ element.children →
    Text.trim content.toList ≠ [] → textKind ∈ rule.childNames

/-- An element is lawful if its type has a rule and it obeys that rule. -/
def Element.Lawful (element : Element) : Prop :=
  ∃ rule, Grammar.rule? element.kind = some rule ∧ element.Obeys rule

/-- A tree is grammatical if its root is a surface and all its elements are lawful. -/
structure Grammatical (root : Element) : Prop where
  surface : root.kind ∈ Tag.top.rule.childNames
  lawful : ∀ element, root.Within element → element.Lawful

/-- What the rule of an element asks of one of its children and of everything below. -/
def Node.Accepted (rule : Rule) : Node → Prop
  | .text content => Text.trim content.toList ≠ [] → textKind ∈ rule.childNames
  | .element child =>
      child.kind ∈ rule.childNames ∧ ∀ element, child.Within element → element.Lawful

section Checks

theorem checkPlace_eq_ok_iff {parent kind : String} {parentRule rule : Rule}
    {location : Location} :
    checkPlace parent parentRule kind location = .ok rule ↔
      Grammar.rule? kind = some rule ∧ kind ∈ parentRule.childNames := by
  rw [checkPlace, ← Rule.allowsChild_iff]
  cases Grammar.rule? kind with
  | none => simp
  | some found =>
      by_cases allowed : parentRule.allowsChild kind = true <;> simp [allowed]

/-- The check of one attribute passes if it is declared and its value permitted. -/
theorem checkAttribute_eq_ok_iff {tag : Tag} {kind name : String} {location : Location}
    {value : AttributeValue} :
    checkAttribute tag.rule kind location name value = .ok () ↔
      name ∈ tag.rule.attributes.map Prod.fst ∧ (value.isNull = false →
        ∀ literals, (name, .oneOf literals) ∈ tag.rule.attributes →
          value.literal ∈ literals) := by
  unfold checkAttribute
  split
  · next absent =>
      have undeclared := Rule.attribute?_eq_none_iff.1 absent
      simp [undeclared]
  · next found =>
      have declared := Rule.attribute?_eq_some_iff.1 found
      have onlyAny : ∀ literals, (name, Allowed.oneOf literals) ∉ tag.rule.attributes := by
        intro literals member
        rw [Rule.attribute?_eq_some_iff.2 member] at found
        cases found
      simp [onlyAny, List.mem_map_of_mem (f := Prod.fst) declared]
  · next literals found =>
      have declared := Rule.attribute?_eq_some_iff.1 found
      have onlyThese : ∀ others, (name, Allowed.oneOf others) ∈ tag.rule.attributes ↔
          others = literals := by
        intro others
        rw [← Rule.attribute?_eq_some_iff, found]
        simp [eq_comm]
      simp only [onlyThese, forall_eq, List.mem_map_of_mem (f := Prod.fst) declared, true_and,
        Allowed.permits]
      cases value.isNull <;> simp

theorem checkAttributes_eq_ok_iff {tag : Tag} {kind : String} {location : Location}
    {entries : List (String × AttributeValue)} :
    checkAttributes tag.rule kind location entries = .ok () ↔
      ∀ entry ∈ entries,
        checkAttribute tag.rule kind location entry.1 entry.2 = .ok () := by
  induction entries with
  | nil => simp [checkAttributes]
  | cons entry rest ih => simp [checkAttributes, both_eq_ok_iff, ih]

theorem checkAll_eq_ok_iff {parent : String} {rule : Rule} {location : Location}
    {accepted : Node → Prop} {nodes : List Node} (index : Nat)
    (passes : ∀ node ∈ nodes, ∀ position,
      Node.check parent rule location position node = .ok () ↔ accepted node) :
    Node.checkAll parent rule location index nodes = .ok () ↔ ∀ node ∈ nodes, accepted node := by
  induction nodes generalizing index with
  | nil => simp [Node.checkAll]
  | cons node rest ih =>
      have head := passes node List.mem_cons_self index
      have tail := fun following => ih following fun other member =>
        passes other (List.mem_cons_of_mem _ member)
      simp [Node.checkAll, both_eq_ok_iff, head, tail (index + 1)]

end Checks

/-- An element and everything below it are lawful exactly when the element has a rule
which its attributes and all its children satisfy. -/
theorem within_lawful_iff {root : Element} :
    (∀ element, root.Within element → element.Lawful) ↔
      ∃ rule, Grammar.rule? root.kind = some rule ∧
        (∀ entry ∈ root.attributes.entries, entry.1 ∈ rule.attributes.map Prod.fst ∧
          (entry.2.isNull = false →
            ∀ literals, (entry.1, .oneOf literals) ∈ rule.attributes →
              entry.2.literal ∈ literals)) ∧
        ∀ node ∈ root.children, node.Accepted rule := by
  constructor
  · intro lawful
    obtain ⟨rule, found, obeys⟩ := lawful root .root
    refine ⟨rule, found, fun entry member =>
      ⟨obeys.declared entry member, obeys.permitted entry member⟩, ?_⟩
    intro node member
    cases node with
    | text content => exact obeys.textual content member
    | element child =>
        exact ⟨obeys.placed child member, fun element inside =>
          lawful element ((Element.Within.root.child member).trans inside)⟩
  · rintro ⟨rule, found, attributes, children⟩ element inside
    rcases Element.within_iff.1 inside with rfl | ⟨child, member, below⟩
    · exact ⟨rule, found, {
        declared := fun entry member => (attributes entry member).1
        permitted := fun entry member => (attributes entry member).2
        placed := fun child member => (children _ member).1
        textual := fun content member => children _ member }⟩
    · exact (children _ member).2 element below

theorem check_eq_ok_iff (element : Element) (parent : String) (parentRule : Rule)
    (location : Location) :
    Element.check parent parentRule location element = .ok () ↔
      Node.Accepted parentRule (.element element) := by
  induction element using Element.induction generalizing parent parentRule location with
  | step element ih =>
      obtain ⟨kind, attributes, children⟩ := element
      have passes (rule : Rule) (node : Node) (member : node ∈ children) (position : Nat) :
          Node.check kind rule location position node = .ok () ↔ node.Accepted rule := by
        cases node with
        | element child => exact ih child member kind rule _
        | text content =>
            rw [Node.check, Node.Accepted, ne_eq, Text.trim_eq_nil_iff, ← Rule.allowsChild_iff]
            cases Text.isBlankText content.toList <;>
              cases rule.allowsChild textKind <;> simp
      rw [Element.check, Node.Accepted, within_lawful_iff]
      rw [bind_eq_ok_iff]
      simp only [checkPlace_eq_ok_iff]
      constructor
      · rintro ⟨rule, ⟨found, allowed⟩, checksPass⟩
        obtain ⟨attributesPass, childrenPass⟩ := both_eq_ok_iff.1 checksPass
        obtain ⟨tag, -, -, rfl⟩ := Grammar.rule?_eq_some_iff.1 found
        refine ⟨allowed, tag.rule, found, fun entry member => ?_, ?_⟩
        · exact checkAttribute_eq_ok_iff.1 (checkAttributes_eq_ok_iff.1 attributesPass entry member)
        · exact (checkAll_eq_ok_iff 0 (passes tag.rule)).1 childrenPass
      · rintro ⟨allowed, rule, found, attributesPass, childrenPass⟩
        obtain ⟨tag, -, -, rfl⟩ := Grammar.rule?_eq_some_iff.1 found
        refine ⟨tag.rule, ⟨found, allowed⟩, both_eq_ok_iff.2 ⟨?_, ?_⟩⟩
        · exact checkAttributes_eq_ok_iff.2 fun entry member =>
            checkAttribute_eq_ok_iff.2 (attributesPass entry member)
        · exact (checkAll_eq_ok_iff 0 (passes tag.rule)).2 childrenPass

/-- A tree that the checker accepts is grammatical. -/
theorem Grammatical.of_validate {root : Element} (accepted : root.validate = .ok ()) :
    Grammatical root :=
  have ⟨surface, lawful⟩ := (check_eq_ok_iff root _ _ _).1 accepted
  ⟨surface, lawful⟩

/-- The checker accepts a grammatical tree. -/
theorem Grammatical.validate {root : Element} (grammatical : Grammatical root) :
    root.validate = .ok () :=
  (check_eq_ok_iff root _ _ _).2 ⟨grammatical.surface, grammatical.lawful⟩

/-- The checker accepts exactly the grammatical trees. -/
theorem validate_eq_ok_iff (root : Element) : root.validate = .ok () ↔ Grammatical root := by
  rw [Element.validate, check_eq_ok_iff]
  exact ⟨fun ⟨surface, lawful⟩ => ⟨surface, lawful⟩,
    fun ⟨surface, lawful⟩ => ⟨surface, lawful⟩⟩

/-- A relation under which the second element adds nothing to the first that could be refused: no
attribute, no child element unrelated to one of the first, and no text that can be seen. -/
structure Element.AddsNothing (related : Element → Element → Prop) : Prop where
  kind : ∀ {old new}, related old new → new.kind = old.kind
  entries : ∀ {old new}, related old new →
    ∀ entry ∈ new.attributes.entries, entry ∈ old.attributes.entries
  elements : ∀ {old new}, related old new → ∀ child, .element child ∈ new.children →
    ∃ original, .element original ∈ old.children ∧ related original child
  texts : ∀ {old new}, related old new → ∀ content, .text content ∈ new.children →
    Text.trim content.toList ≠ [] → .text content ∈ old.children

namespace Element.AddsNothing

variable {related : Element → Element → Prop} (addsNothing : AddsNothing related)
  {old new element : Element} (both : related old new)

include addsNothing both

theorem exists_within (inside : new.Within element) :
    ∃ original, old.Within original ∧ related original element := by
  induction inside with
  | root => exact ⟨old, .root, both⟩
  | child _ member ih =>
      obtain ⟨parent, parentInside, parents⟩ := ih
      obtain ⟨original, originalMember, children⟩ := addsNothing.elements parents _ member
      exact ⟨original, parentInside.child originalMember, children⟩

theorem obeys {rule : Rule} (obeys : old.Obeys rule) : new.Obeys rule where
  declared entry member := obeys.declared entry (addsNothing.entries both entry member)
  permitted entry member := obeys.permitted entry (addsNothing.entries both entry member)
  placed child member := by
    obtain ⟨original, originalMember, children⟩ := addsNothing.elements both child member
    rw [addsNothing.kind children]
    exact obeys.placed original originalMember
  textual content member visible :=
    obeys.textual content (addsNothing.texts both content member visible) visible

/-- What adds nothing to an accepted tree is accepted. -/
theorem validate (accepted : old.validate = .ok ()) : new.validate = .ok () := by
  have grammatical := Grammatical.of_validate accepted
  apply Grammatical.validate
  constructor
  · rw [addsNothing.kind both]
    exact grammatical.surface
  · intro element inside
    obtain ⟨original, originalInside, pair⟩ := addsNothing.exists_within both inside
    obtain ⟨rule, found, obeys⟩ := grammatical.lawful original originalInside
    exact ⟨rule, addsNothing.kind pair ▸ found, addsNothing.obeys pair obeys⟩

end Element.AddsNothing

end MessageBlocks
