import MessageBlocks.Proofs.Compile.Lookalikes

/-!
# Changes that compilation does not see

A change of the elements of a tree that shows in no reading of an element relates elements that
are lookalikes. So it leaves every part of the result as it was.
-/

namespace MessageBlocks

/-- The node with its element changed, if it has one. -/
def Node.change (change : Element → Element) : Node → Node
  | .text content => .text content
  | .element child => .element (change child)

/-- A change of elements, and of all elements below them, that no reading shows. -/
structure Element.Unseen (change : Element → Element) : Prop where
  tag? : ∀ element, (change element).tag? = element.tag?
  literal? : ∀ element, (change element).literal? = element.literal?
  bool? : ∀ element, (change element).bool? = element.bool?
  int? : ∀ element, (change element).int? = element.int?
  listNumber? : ∀ element, Markup.numberAttribute? (change element).attributes =
    Markup.numberAttribute? element.attributes
  children : ∀ element, (change element).children = element.children.map (Node.change change)

namespace Element.Unseen

variable {change : Element → Element}

theorem lookalike (unseen : Unseen change) : Lookalike fun old new => new = change old := by
  apply Lookalike.of_children
  · rintro old _ rfl
    exact ⟨unseen.tag? old, unseen.literal? old, unseen.bool? old, unseen.int? old,
      unseen.listNumber? old⟩
  · rintro old _ rfl
    rw [unseen.children, List.forall₂_map_right_iff, List.forall₂_same]
    intro node _
    cases node with
    | text content => exact .text content
    | element child => exact .element rfl

/-- A tree stands for the same surface after a change that no reading shows. -/
theorem surface_eq {W : Type} [Width W] (unseen : Unseen change) (root : Element) :
    ((change root).surface : Query W Surface) = root.surface :=
  unseen.lookalike.surface_eq rfl

end Element.Unseen

end MessageBlocks
