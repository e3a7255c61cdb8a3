import MessageBlocks.Tree.Element
import Mathlib.Data.List.Forall2

/-!
# Descent in trees

Trees are nested lists of nodes, so a proof about all elements of a tree follows
its child elements. This file provides that induction, the relation between the
root of a tree and the elements that stand in it at any depth, and the relation
between the nodes of two trees that comes from one between their elements.
-/

namespace MessageBlocks

mutual

private theorem Node.induction_elements {motive : Element → Prop}
    (step : ∀ element : Element,
      (∀ child, .element child ∈ element.children → motive child) → motive element)
    (node : Node) : ∀ child, node = .element child → motive child :=
  match node with
  | .text _ => fun _ equal => nomatch equal
  | .element element => fun _ equal => Node.element.inj equal ▸ Element.induction step element

/-- What holds of an element as soon as it holds of all child elements holds of
every element. -/
theorem Element.induction {motive : Element → Prop}
    (step : ∀ element : Element,
      (∀ child, .element child ∈ element.children → motive child) → motive element)
    (element : Element) : motive element :=
  match element with
  | ⟨kind, attributes, children⟩ =>
      step ⟨kind, attributes, children⟩ (Node.induction_children step children)

private theorem Node.induction_children {motive : Element → Prop}
    (step : ∀ element : Element,
      (∀ child, .element child ∈ element.children → motive child) → motive element)
    (nodes : List Node) : ∀ child, .element child ∈ nodes → motive child :=
  match nodes with
  | [] => fun _ member => nomatch member
  | node :: rest => fun child member =>
      (List.mem_cons.1 member).elim
        (fun equal => Node.induction_elements step node child equal.symm)
        (Node.induction_children step rest child)

end

namespace Element

/-- `root.Within element`: the element stands in the tree of `root`, at any depth. -/
inductive Within (root : Element) : Element → Prop where
  | root : Within root root
  | child {parent child : Element} (inside : Within root parent)
      (member : .element child ∈ parent.children) : Within root child

theorem Within.trans {root middle element : Element} (outer : root.Within middle)
    (inner : middle.Within element) : root.Within element := by
  induction inner with
  | root => exact outer
  | child _ member ih => exact ih.child member

/-- An element of a tree is its root or stands in the tree of a child. -/
theorem within_iff {root element : Element} :
    root.Within element ↔
      element = root ∨ ∃ child, .element child ∈ root.children ∧ child.Within element := by
  constructor
  · intro inside
    induction inside with
    | root => exact .inl rfl
    | child _ member ih =>
        rcases ih with rfl | ⟨top, topMember, topInside⟩
        · exact .inr ⟨_, member, .root⟩
        · exact .inr ⟨top, topMember, topInside.child member⟩
  · rintro (rfl | ⟨child, member, inside⟩)
    · exact .root
    · exact (Within.root.child member).trans inside

/-- The elements among the children of an element are its child elements. -/
theorem mem_elements {element child : Element} :
    child ∈ element.elements ↔ .element child ∈ element.children := by
  simp only [elements, List.mem_filterMap]
  constructor
  · rintro ⟨node, member, found⟩
    cases node with
    | text content => cases found
    | element other => exact Option.some.inj found ▸ member
  · intro member
    exact ⟨.element child, member, rfl⟩

end Element

theorem Node.rawText_element (element : Element) :
    rawText (.element element) = rawTexts element.children := by
  obtain ⟨kind, attributes, children⟩ := element
  rfl

/-- Two nodes are the same text, or two related elements. -/
inductive Node.Both (related : Element → Element → Prop) : Node → Node → Prop where
  | text (content : String) : Both related (.text content) (.text content)
  | element {old new : Element} (both : related old new) :
      Both related (.element old) (.element new)

theorem Node.Both.elements {related : Element → Element → Prop} {nodes others : List Node}
    (pairs : List.Forall₂ (Node.Both related) nodes others) :
    List.Forall₂ related (nodes.filterMap Node.element?) (others.filterMap Node.element?) := by
  induction pairs with
  | nil => exact .nil
  | cons first _ ih =>
      cases first with
      | text content => exact ih
      | element both => exact .cons both ih

end MessageBlocks
