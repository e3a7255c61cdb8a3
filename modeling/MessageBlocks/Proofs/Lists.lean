import Mathlib.Data.List.Forall2

/-!
# Lists item by item

Two lists of one length are related item by item. What is computed from each of them alone is
then the same, or again related, if it is so for any two related items.
-/

namespace MessageBlocks

variable {α β γ : Type} {related : α → β → Prop} {items : List α} {others : List β}

theorem map_eq_of_forall₂ {convert : α → γ} {reconvert : β → γ}
    (pairs : List.Forall₂ related items others)
    (same : ∀ item other, related item other → reconvert other = convert item) :
    others.map reconvert = items.map convert := by
  induction pairs with
  | nil => rfl
  | cons first _ ih => rw [List.map_cons, List.map_cons, same _ _ first, ih]

theorem filterMap_eq_of_forall₂ {convert : α → Option γ} {reconvert : β → Option γ}
    (pairs : List.Forall₂ related items others)
    (same : ∀ item other, related item other → reconvert other = convert item) :
    others.filterMap reconvert = items.filterMap convert := by
  induction pairs with
  | nil => rfl
  | cons first _ ih => rw [List.filterMap_cons, List.filterMap_cons, same _ _ first, ih]

theorem mapM_eq_of_forall₂ {m : Type → Type} [Monad m] [LawfulMonad m] {convert : α → m γ}
    {reconvert : β → m γ} (pairs : List.Forall₂ related items others)
    (same : ∀ item other, related item other → reconvert other = convert item) :
    others.mapM reconvert = items.mapM convert := by
  induction pairs with
  | nil => rfl
  | cons first _ ih => rw [List.mapM_cons, List.mapM_cons, same _ _ first, ih]

theorem forall₂_filter {test : α → Bool} {retest : β → Bool}
    (pairs : List.Forall₂ related items others)
    (same : ∀ item other, related item other → retest other = test item) :
    List.Forall₂ related (items.filter test) (others.filter retest) := by
  induction pairs with
  | nil => exact .nil
  | @cons item other _ _ first _ ih =>
      rw [List.filter_cons, List.filter_cons, same item other first]
      split
      · exact .cons first ih
      · exact ih

theorem isEmpty_eq_of_forall₂ (pairs : List.Forall₂ related items others) :
    others.isEmpty = items.isEmpty := by
  cases pairs <;> rfl

theorem head?_of_forall₂ (pairs : List.Forall₂ related items others) :
    Option.Rel related items.head? others.head? := by
  cases pairs with
  | nil => exact .none
  | cons first _ => exact .some first

theorem find?_of_forall₂ {test : α → Bool} {retest : β → Bool}
    (pairs : List.Forall₂ related items others)
    (same : ∀ item other, related item other → retest other = test item) :
    Option.Rel related (items.find? test) (others.find? retest) := by
  rw [← List.head?_filter, ← List.head?_filter]
  exact head?_of_forall₂ (forall₂_filter pairs same)

/-- If joined parts are equal in all, and any two related items have parts of one length, then they
have the same parts. -/
theorem forall₂_of_flatMap_eq {parts : α → List γ} {otherParts : β → List γ}
    (pairs : List.Forall₂ related items others)
    (lengths : ∀ item other, related item other →
      (parts item).length = (otherParts other).length)
    (same : items.flatMap parts = others.flatMap otherParts) :
    List.Forall₂ (fun item other => related item other ∧ parts item = otherParts other)
      items others := by
  induction pairs with
  | nil => exact .nil
  | cons first _ ih =>
      rw [List.flatMap_cons, List.flatMap_cons] at same
      obtain ⟨head, rest⟩ := List.append_inj same (lengths _ _ first)
      exact .cons ⟨first, head⟩ (ih rest)

theorem exists_of_mem_forall₂ (pairs : List.Forall₂ related items others) {other : β}
    (member : other ∈ others) : ∃ item ∈ items, related item other := by
  induction pairs with
  | nil => cases member
  | cons head _ ih =>
      rcases List.mem_cons.1 member with rfl | inRest
      · exact ⟨_, List.mem_cons_self, head⟩
      · obtain ⟨item, itemMember, itemRelated⟩ := ih inRest
        exact ⟨item, List.mem_cons_of_mem _ itemMember, itemRelated⟩

/-- If every item has an image then filtering drops none. -/
theorem forall₂_filterMap {image : α → Option β}
    (each : ∀ item ∈ items, ∃ found, image item = some found ∧ related item found) :
    List.Forall₂ related items (items.filterMap image) := by
  induction items with
  | nil => exact .nil
  | cons item rest ih =>
      obtain ⟨found, present, both⟩ := each item List.mem_cons_self
      rw [List.filterMap_cons_some present]
      exact .cons both (ih fun other member => each other (List.mem_cons_of_mem _ member))

end MessageBlocks
