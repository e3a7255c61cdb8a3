import MessageBlocks.Proofs.Grammar.Acceptance
import Mathlib.Data.List.Forall2

/-!
# Aliases

Some tags have several names, and a tree may mix them freely. The canonical form of a tree
has the first name of every tag. Trees that differ only in the choice of such names have the
same canonical form, and the checker accepts a tree exactly if it accepts its canonical form.
-/

namespace MessageBlocks

namespace Grammar

/-- The type names that may stand for each other. -/
def aliasGroups : List (List String) :=
  [["Section", "section"], ["Divider", "hr"], ["Image", "img"], ["Header", "header"],
    ["Button", "button"], ["Select", "select"], ["Textarea", "textarea"], ["Option", "option"],
    ["Optgroup", "optgroup"], ["b", "strong"], ["i", "em"], ["s", "strike", "del"]]

/-- A name stands for itself and for the other names of its group. -/
def AreAliases (first second : String) : Prop :=
  first = second ∨ ∃ group ∈ aliasGroups, first ∈ group ∧ second ∈ group

instance (first second : String) : Decidable (AreAliases first second) :=
  inferInstanceAs (Decidable (_ ∨ _))

/-- The first name of the tag of a name. Other names stay as they are. -/
def canonicalName (name : String) : String :=
  ((Tag.ofName? name).bind fun tag => tag.names.head?).getD name

theorem ofName?_canonicalName (name : String) :
    Tag.ofName? (canonicalName name) = Tag.ofName? name := by
  rw [canonicalName]
  cases found : Tag.ofName? name with
  | none => exact found
  | some tag =>
      obtain ⟨first, head⟩ : ∃ first, tag.names.head? = some first := by
        cases tag <;> exact ⟨_, rfl⟩
      rw [Option.bind_some, head, Option.getD_some, Tag.ofName?_eq_some_iff]
      exact List.mem_of_head? head

theorem AreAliases.canonicalName_eq {first second : String} (aliases : AreAliases first second) :
    canonicalName first = canonicalName second := by
  -- There are few groups, so the names of each can be compared one by one.
  have inGroups : ∀ group ∈ aliasGroups, ∀ first ∈ group, ∀ second ∈ group,
      canonicalName first = canonicalName second := by decide +kernel
  rcases aliases with rfl | ⟨group, member, inFirst, inSecond⟩
  · rfl
  · exact inGroups group member first inFirst second inSecond

theorem rule?_canonicalName (name : String) : rule? (canonicalName name) = rule? name := by
  rw [rule?, rule?, ofName?_canonicalName]

theorem canonicalName_mem_childNames {rule : Rule} {name : String} :
    canonicalName name ∈ rule.childNames ↔ name ∈ rule.childNames := by
  rw [← Rule.allowsChild_iff, ← Rule.allowsChild_iff, Rule.allowsChild, Rule.allowsChild,
    ofName?_canonicalName]

end Grammar

open Grammar

/-- `old.Renamed new`: the nodes differ at most in the names of elements, at any places, each
of which is replaced by one that may stand for it. -/
inductive Node.Renamed : Node → Node → Prop where
  | text (content : String) : Renamed (.text content) (.text content)
  | element {kind name : String} {attributes : Attributes} {children others : List Node}
      (aliases : AreAliases kind name) (below : List.Forall₂ Renamed children others) :
      Renamed (.element ⟨kind, attributes, children⟩) (.element ⟨name, attributes, others⟩)

def Element.Renamed (old new : Element) : Prop :=
  Node.Renamed (.element old) (.element new)

mutual

def Node.canonical : Node → Node
  | .text content => .text content
  | .element element => .element (Element.canonical element)

/-- The tree with the first name of the tag of each element. -/
def Element.canonical : Element → Element
  | ⟨kind, attributes, children⟩ => ⟨canonicalName kind, attributes, Node.canonicals children⟩

def Node.canonicals : List Node → List Node
  | [] => []
  | node :: rest => Node.canonical node :: Node.canonicals rest

end

mutual

theorem Node.Renamed.canonical_eq {old new : Node} :
    Node.Renamed old new → old.canonical = new.canonical
  | .text content => rfl
  | .element aliases below => by
      rw [Node.canonical, Element.canonical, Node.canonical, Element.canonical,
        aliases.canonicalName_eq, canonicals_eq below]

theorem Node.Renamed.canonicals_eq {old new : List Node} :
    List.Forall₂ Node.Renamed old new → Node.canonicals old = Node.canonicals new
  | .nil => rfl
  | .cons first following => by
      rw [Node.canonicals, Node.canonicals, canonical_eq first, canonicals_eq following]

end

theorem Element.Renamed.canonical_eq {old new : Element} (renamed : old.Renamed new) :
    old.canonical = new.canonical :=
  Node.element.inj (Node.Renamed.canonical_eq renamed)

theorem Node.canonicals_eq_map (nodes : List Node) : canonicals nodes = nodes.map canonical := by
  induction nodes with
  | nil => rfl
  | cons node rest ih => rw [canonicals, ih, List.map_cons]

namespace Element

@[simp]
theorem kind_canonical (element : Element) : element.canonical.kind = canonicalName element.kind := by
  cases element
  rfl

@[simp]
theorem attributes_canonical (element : Element) :
    element.canonical.attributes = element.attributes := by
  cases element
  rfl

@[simp]
theorem children_canonical (element : Element) :
    element.canonical.children = element.children.map Node.canonical := by
  cases element
  exact Node.canonicals_eq_map _

theorem element_mem_canonical {nodes : List Node} {child : Element} :
    .element child ∈ nodes.map Node.canonical ↔
      ∃ original, .element original ∈ nodes ∧ original.canonical = child := by
  rw [List.mem_map]
  constructor
  · rintro ⟨node, member, same⟩
    cases node with
    | text content => cases same
    | element original => exact ⟨original, member, Node.element.inj same⟩
  · rintro ⟨original, member, rfl⟩
    exact ⟨.element original, member, rfl⟩

theorem text_mem_canonical {nodes : List Node} {content : String} :
    .text content ∈ nodes.map Node.canonical ↔ .text content ∈ nodes := by
  rw [List.mem_map]
  constructor
  · rintro ⟨node, member, same⟩
    cases node with
    | text other => exact same ▸ member
    | element original => cases same
  · intro member
    exact ⟨.text content, member, rfl⟩

theorem obeys_canonical {element : Element} {rule : Rule} :
    element.canonical.Obeys rule ↔ element.Obeys rule := by
  have placed : (∀ child, .element child ∈ element.canonical.children →
      child.kind ∈ rule.childNames) ↔
        ∀ child, .element child ∈ element.children → child.kind ∈ rule.childNames := by
    simp [element_mem_canonical, canonicalName_mem_childNames]
  have textual : ∀ content, .text content ∈ element.canonical.children ↔
      .text content ∈ element.children := by
    simp [text_mem_canonical]
  constructor
  · intro obeys
    have declared := obeys.declared
    have permitted := obeys.permitted
    rw [attributes_canonical] at declared permitted
    exact ⟨declared, permitted, placed.1 obeys.placed,
      fun content member => obeys.textual content ((textual content).2 member)⟩
  · intro obeys
    refine ⟨?_, ?_, placed.2 obeys.placed,
      fun content member => obeys.textual content ((textual content).1 member)⟩
    · rw [attributes_canonical]
      exact obeys.declared
    · rw [attributes_canonical]
      exact obeys.permitted

theorem lawful_canonical {element : Element} : element.canonical.Lawful ↔ element.Lawful := by
  simp only [Lawful, kind_canonical, rule?_canonicalName, obeys_canonical]

/-- The elements of a canonical tree are the canonical forms of those of the tree. -/
theorem within_canonical_iff {root element : Element} :
    root.canonical.Within element ↔
      ∃ original, root.Within original ∧ original.canonical = element := by
  constructor
  · intro inside
    induction inside with
    | root => exact ⟨root, .root, rfl⟩
    | child _ member ih =>
        obtain ⟨parent, parentInside, rfl⟩ := ih
        rw [children_canonical, element_mem_canonical] at member
        obtain ⟨original, originalMember, same⟩ := member
        exact ⟨original, parentInside.child originalMember, same⟩
  · rintro ⟨original, inside, rfl⟩
    induction inside with
    | root => exact .root
    | child _ member ih =>
        apply ih.child
        rw [children_canonical, element_mem_canonical]
        exact ⟨_, member, rfl⟩

end Element

/-- A tree is grammatical exactly if its canonical form is. -/
theorem grammatical_canonical {root : Element} :
    Grammatical root.canonical ↔ Grammatical root := by
  have surface : root.canonical.kind ∈ Tag.top.rule.childNames ↔
      root.kind ∈ Tag.top.rule.childNames := by
    rw [Element.kind_canonical, canonicalName_mem_childNames]
  have lawful : (∀ element, root.canonical.Within element → element.Lawful) ↔
      ∀ element, root.Within element → element.Lawful := by
    constructor
    · intro lawful element inside
      exact Element.lawful_canonical.1
        (lawful _ (Element.within_canonical_iff.2 ⟨element, inside, rfl⟩))
    · intro lawful element inside
      obtain ⟨original, originalInside, rfl⟩ := Element.within_canonical_iff.1 inside
      exact Element.lawful_canonical.2 (lawful original originalInside)
  exact ⟨fun grammatical => ⟨surface.1 grammatical.surface, lawful.1 grammatical.lawful⟩,
    fun grammatical => ⟨surface.2 grammatical.surface, lawful.2 grammatical.lawful⟩⟩

/-- Names that may stand for each other make no difference to the checker. -/
theorem Element.Renamed.accepted_iff {old new : Element} (renamed : old.Renamed new) :
    old.validate = .ok () ↔ new.validate = .ok () := by
  have same : Grammatical old ↔ Grammatical new := by
    rw [← grammatical_canonical, renamed.canonical_eq, grammatical_canonical]
  constructor
  · intro accepted
    exact (same.1 (.of_validate accepted)).validate
  · intro accepted
    exact (same.2 (.of_validate accepted)).validate

end MessageBlocks
