import MessageBlocks.Text.Blank
import Mathlib.Data.List.DropRight

/-!
# Trimming

The lines of a page and the characters of a text are trimmed alike: what is blank is dropped at both
ends, in whichever order. What is left starts and ends with something that is not blank.
-/

namespace MessageBlocks

variable {α : Type} {blank : α → Bool} {items first second top core bottom : List α}

/-- A list without the blank items at either end. -/
def trimmed (blank : α → Bool) (items : List α) : List α :=
  (items.rdropWhile blank).dropWhile blank

/-- A list with nothing blank at either end. -/
structure IsTight (blank : α → Bool) (items : List α) : Prop where
  first : ∀ item ∈ items.head?, blank item = false
  last : ∀ item ∈ items.getLast?, blank item = false

theorem IsTight.reverse (tight : IsTight blank items) : IsTight blank items.reverse where
  first := by
    rw [List.head?_reverse]
    exact tight.last
  last := by
    rw [List.getLast?_reverse]
    exact tight.first

theorem IsTight.join (tight : IsTight blank first) (tightNext : IsTight blank second)
    (some : first ≠ []) (someNext : second ≠ []) (between : List α) :
    IsTight blank (first ++ between ++ second) where
  first item member := by
    rw [List.append_assoc, List.head?_append_of_ne_nil _ some] at member
    exact tight.first item member
  last item member := by
    rw [List.getLast?_append_of_ne_nil _ someNext] at member
    exact tightNext.last item member

theorem IsTight.prepend {lead : List α} (plain : ∀ item ∈ lead, blank item = false)
    (tight : IsTight blank items) : IsTight blank (lead ++ items) where
  first item member := by
    rw [List.head?_append, Option.mem_def, Option.or_eq_some_iff] at member
    rcases member with inLead | ⟨-, inItems⟩
    · exact plain item (List.mem_of_head? inLead)
    · exact tight.first item inItems
  last item member := by
    rw [List.getLast?_append, Option.mem_def, Option.or_eq_some_iff] at member
    rcases member with inItems | ⟨-, inLead⟩
    · exact tight.last item inItems
    · exact plain item (List.mem_of_getLast? inLead)

theorem isTight_trimmed (blank : α → Bool) (items : List α) :
    IsTight blank (trimmed blank items) where
  first item member := by
    have opens := List.head?_dropWhile_not blank (items.rdropWhile blank)
    rw [trimmed, Option.mem_def] at member
    rwa [member] at opens
  last item member := by
    have closes := List.head?_dropWhile_not blank items.reverse
    have suffix : trimmed blank items <:+ items.rdropWhile blank := List.dropWhile_suffix _
    obtain ⟨blanks, cut⟩ := suffix
    have some : trimmed blank items ≠ [] := List.ne_nil_of_mem (List.mem_of_getLast? member)
    rw [← List.getLast?_append_of_ne_nil blanks some, cut, List.rdropWhile, List.getLast?_reverse,
      Option.mem_def] at member
    rwa [member] at closes

theorem exists_around_trimmed (blank : α → Bool) (items : List α) : ∃ top bottom : List α,
    (∀ item ∈ top, blank item) ∧ (∀ item ∈ bottom, blank item) ∧
      items = top ++ trimmed blank items ++ bottom :=
  ⟨_, _, fun _ => List.mem_takeWhile_imp, fun _ => List.mem_rtakeWhile_imp, by
    rw [trimmed, List.takeWhile_append_dropWhile, List.rdropWhile_append_rtakeWhile]⟩

theorem dropWhile_of_blank (blankTop : ∀ item ∈ top, blank item)
    (shown : ∀ item ∈ items.head?, blank item = false) :
    (top ++ items).dropWhile blank = items := by
  rw [List.dropWhile_append_of_pos blankTop]
  cases items with
  | nil => rfl
  | cons item rest => exact List.dropWhile_cons_of_neg (by simp [shown item rfl])

theorem rdropWhile_of_blank (blankBottom : ∀ item ∈ bottom, blank item)
    (shown : ∀ item ∈ items.getLast?, blank item = false) :
    (items ++ bottom).rdropWhile blank = items := by
  rw [List.rdropWhile, List.reverse_append, dropWhile_of_blank (by simpa using blankBottom)
    (by simpa [List.head?_reverse] using shown), List.reverse_reverse]

theorem trimmed_of_blank (all : ∀ item ∈ items, blank item) : trimmed blank items = [] := by
  rw [trimmed, List.rdropWhile_eq_nil_iff.2 all, List.dropWhile_nil]

/-- What is tight is what is left when blank items around it are dropped. -/
theorem trimmed_of_isTight (tight : IsTight blank core) (blankTop : ∀ item ∈ top, blank item)
    (blankBottom : ∀ item ∈ bottom, blank item) : trimmed blank (top ++ core ++ bottom) = core := by
  by_cases none : core = []
  · subst none
    exact trimmed_of_blank (by simpa [or_imp, forall_and] using ⟨blankTop, blankBottom⟩)
  · have closes : ∀ item ∈ (top ++ core).getLast?, blank item = false := by
      rw [List.getLast?_append_of_ne_nil _ none]
      exact tight.last
    rw [trimmed, rdropWhile_of_blank blankBottom closes, dropWhile_of_blank blankTop tight.first]

theorem trimmed_eq_nil_iff : trimmed blank items = [] ↔ ∀ item ∈ items, blank item := by
  refine ⟨fun none => ?_, trimmed_of_blank⟩
  obtain ⟨top, bottom, blankTop, blankBottom, whole⟩ := exists_around_trimmed blank items
  rw [whole, none, List.append_nil]
  exact List.forall_mem_append.2 ⟨blankTop, blankBottom⟩

theorem trimmed_append_of_blank_left (all : ∀ item ∈ first, blank item) (second : List α) :
    trimmed blank (first ++ second) = trimmed blank second := by
  obtain ⟨top, bottom, blankTop, blankBottom, whole⟩ := exists_around_trimmed blank second
  conv_lhs => rw [whole, ← List.append_assoc, ← List.append_assoc]
  exact trimmed_of_isTight (isTight_trimmed blank second)
    (List.forall_mem_append.2 ⟨all, blankTop⟩) blankBottom

theorem trimmed_append_of_blank_right (first : List α) (all : ∀ item ∈ second, blank item) :
    trimmed blank (first ++ second) = trimmed blank first := by
  obtain ⟨top, bottom, blankTop, blankBottom, whole⟩ := exists_around_trimmed blank first
  conv_lhs => rw [whole, List.append_assoc]
  exact trimmed_of_isTight (isTight_trimmed blank first) blankTop
    (List.forall_mem_append.2 ⟨blankBottom, all⟩)

theorem trimmed_reverse (blank : α → Bool) (items : List α) :
    trimmed blank items.reverse = (trimmed blank items).reverse := by
  obtain ⟨top, bottom, blankTop, blankBottom, whole⟩ := exists_around_trimmed blank items
  conv_lhs => rw [whole, List.reverse_append, List.reverse_append, ← List.append_assoc]
  exact trimmed_of_isTight (isTight_trimmed blank items).reverse
    (by simpa using blankBottom) (by simpa using blankTop)

/-- If two lists have something in them, there are the blank items between them that end the first
one, that are put in and that start the second one. -/
theorem trimmed_join (some : trimmed blank first ≠ []) (someNext : trimmed blank second ≠ [])
    {gap : List α} (blankGap : ∀ item ∈ gap, blank item) :
    ∃ between : List α, (∀ item ∈ between, blank item) ∧
      trimmed blank (first ++ gap ++ second) =
        trimmed blank first ++ between ++ trimmed blank second ∧
      (between = [] → gap = [] ∧ ∃ last ∈ first.getLast?, blank last = false) := by
  obtain ⟨top, bottom, blankTop, blankBottom, whole⟩ := exists_around_trimmed blank first
  obtain ⟨topNext, bottomNext, blankTopNext, blankBottomNext, wholeNext⟩ :=
    exists_around_trimmed blank second
  have tight := isTight_trimmed blank first
  refine ⟨bottom ++ gap ++ topNext, ?_, ?_, ?_⟩
  · exact List.forall_mem_append.2
      ⟨List.forall_mem_append.2 ⟨blankBottom, blankGap⟩, blankTopNext⟩
  · have joined := trimmed_of_isTight
      (tight.join (isTight_trimmed blank second) some someNext (bottom ++ gap ++ topNext))
      blankTop blankBottomNext
    rw [← joined]
    conv_lhs => rw [whole, wholeNext]
    simp only [List.append_assoc]
  · intro nothing
    obtain ⟨⟨noBottom, noGap⟩, -⟩ : (bottom = [] ∧ gap = []) ∧ topNext = [] := by
      simpa only [List.append_eq_nil_iff] using nothing
    obtain ⟨last, isLast⟩ := Option.ne_none_iff_exists'.1 (List.getLast?_eq_none_iff.not.2 some)
    refine ⟨noGap, last, ?_, tight.last last isLast⟩
    rw [whole, noBottom, List.append_nil, List.getLast?_append_of_ne_nil _ some]
    exact isLast

/-- Texts are trimmed at the start first. -/
theorem Text.trimBy_eq_trimmed (discard : Char → Bool) (text : List Char) :
    Text.trimBy discard text = trimmed discard text := by
  obtain ⟨top, bottom, blankTop, blankBottom, whole⟩ := exists_around_trimmed discard text
  have tight := isTight_trimmed discard text
  by_cases none : trimmed discard text = []
  · rw [Text.trimBy, Text.trimEndBy, Text.trimStartBy,
      List.dropWhile_eq_nil_iff.2 (trimmed_eq_nil_iff.1 none), none]
    rfl
  · have opens : ∀ item ∈ (trimmed discard text ++ bottom).head?, discard item = false := by
      rw [List.head?_append_of_ne_nil _ none]
      exact tight.first
    conv_lhs => rw [whole, List.append_assoc]
    rw [Text.trimBy, Text.trimStartBy, dropWhile_of_blank blankTop opens]
    exact rdropWhile_of_blank blankBottom tight.last

end MessageBlocks
