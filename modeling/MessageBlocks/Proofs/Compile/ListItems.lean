import MessageBlocks.Compile.Composition
import MessageBlocks.Proofs.Text.Selection
import MessageBlocks.Proofs.Trimming

/-!
# Lists in attributes

An attribute that holds a list has entries with commas between them. An entry is an item with blank
characters around it, or it is blank and stands for nothing. Which entries there are and what the
items in them are is determined by the text, so a list is read as it was written, however much it
was padded.
-/

namespace MessageBlocks

namespace Text

variable {text item : List Char} {entries items : List (List Char)}

/-- What can be an item of a list. -/
structure IsListItem (item : List Char) : Prop where
  some : item ≠ []
  noComma : ',' ∉ item
  tight : IsTight isBlank item

/-- `HoldsItems entries items`: each item has an entry of its own, in the same order, and what is
left of the entries is blank. -/
inductive HoldsItems : List (List Char) → List (List Char) → Prop
  | nil : HoldsItems [] []
  | blank {entry : List Char} {entries items : List (List Char)}
      (blank : ∀ character ∈ entry, isBlank character = true)
      (rest : HoldsItems entries items) : HoldsItems (entry :: entries) items
  | item {before item after : List Char} {entries items : List (List Char)}
      (blankBefore : ∀ character ∈ before, isBlank character = true)
      (blankAfter : ∀ character ∈ after, isBlank character = true)
      (isItem : IsListItem item) (rest : HoldsItems entries items) :
      HoldsItems ((before ++ item ++ after) :: entries) (item :: items)

theorem comma_notMem_of_blank (blank : ∀ character ∈ text, isBlank character = true) :
    ',' ∉ text := by
  intro member
  have comma : isBlank ',' = true := blank ',' member
  cases comma

namespace HoldsItems

theorem isListItem (holds : HoldsItems entries items) : ∀ item ∈ items, IsListItem item := by
  induction holds with
  | nil => nofun
  | blank _ _ ih => exact ih
  | item _ _ isItem _ ih => exact List.forall_mem_cons.2 ⟨isItem, ih⟩

theorem comma_notMem (holds : HoldsItems entries items) : ∀ entry ∈ entries, ',' ∉ entry := by
  induction holds with
  | nil => nofun
  | blank blank _ ih => exact List.forall_mem_cons.2 ⟨comma_notMem_of_blank blank, ih⟩
  | item blankBefore blankAfter isItem _ ih =>
      refine List.forall_mem_cons.2 ⟨?_, ih⟩
      simp only [List.mem_append, not_or]
      exact ⟨⟨comma_notMem_of_blank blankBefore, isItem.noComma⟩,
        comma_notMem_of_blank blankAfter⟩

theorem filter_map_trim (holds : HoldsItems entries items) :
    (entries.map trim).filter (!·.isEmpty) = items := by
  induction holds with
  | nil => rfl
  | blank blank _ ih =>
      have nothing := trimmed_of_blank blank
      rw [← trimBy_eq_trimmed, ← trim] at nothing
      simp [nothing, ih]
  | item blankBefore blankAfter isItem _ ih =>
      have core := trimmed_of_isTight isItem.tight blankBefore blankAfter
      rw [← trimBy_eq_trimmed, ← trim] at core
      rw [List.map_cons, core, List.filter_cons_of_pos (by simp [isItem.some]), ih]

/-- Entries hold what is left of them when they are trimmed and the empty ones are dropped. -/
theorem of_comma_notMem (apart : ∀ entry ∈ entries, ',' ∉ entry) :
    HoldsItems entries ((entries.map trim).filter (!·.isEmpty)) := by
  induction entries with
  | nil => exact nil
  | cons entry rest ih =>
      obtain ⟨noComma, apartRest⟩ := List.forall_mem_cons.1 apart
      have following := ih apartRest
      have trims : trim entry = trimmed isBlank entry := trimBy_eq_trimmed isBlank entry
      rw [List.map_cons, trims]
      obtain ⟨before, after, blankBefore, blankAfter, whole⟩ :=
        exists_around_trimmed isBlank entry
      by_cases nothing : trimmed isBlank entry = []
      · rw [List.filter_cons_of_neg (by simp [nothing])]
        exact blank (trimmed_eq_nil_iff.1 nothing) following
      · have isItem : IsListItem (trimmed isBlank entry) :=
          { some := nothing
            noComma := fun member => noComma (by rw [whole]; simp [member])
            tight := isTight_trimmed isBlank entry }
        rw [List.filter_cons_of_pos (by simp [nothing])]
        conv => lhs; rw [whole]
        exact item blankBefore blankAfter isItem following

end HoldsItems

theorem listItems_eq_iff : listItems text = items ↔
    ∃ entries, text = [','].intercalate entries ∧ HoldsItems entries items := by
  constructor
  · rintro rfl
    have apart : ∀ entry ∈ text.splitOn ',', ',' ∉ entry := fun _ => notMem_of_mem_splitOn
    exact ⟨text.splitOn ',', (List.intercalate_splitOn ',').symm, .of_comma_notMem apart⟩
  · rintro ⟨entries, rfl, holds⟩
    by_cases none : entries = []
    · subst none
      cases holds
      rfl
    · rw [listItems, List.splitOn_intercalate ',' holds.comma_notMem none, holds.filter_map_trim]

end Text

open Text

/-- The items of an attribute are those that its entries hold, each of them free of commas and of
blank characters at its ends. -/
theorem Element.listAttribute_eq_iff {element : Element} {name text : String}
    (given : element.literal? name = some text) :
    (∀ item ∈ element.listAttribute name, IsListItem item.toList) ∧
      ∀ items : List String, element.listAttribute name = items ↔
        ∃ entries, text.toList = [','].intercalate entries ∧
          HoldsItems entries (items.map String.toList) := by
  have read : (element.listAttribute name).map String.toList = listItems text.toList := by
    simp [listAttribute, given, Function.comp_def]
  have reads (items : List String) : element.listAttribute name = items ↔
      ∃ entries, text.toList = [','].intercalate entries ∧
        HoldsItems entries (items.map String.toList) := by
    rw [← listItems_eq_iff, ← read]
    exact (List.map_injective_iff.2 fun _ _ => String.toList_inj.1).eq_iff.symm
  refine ⟨?_, reads⟩
  obtain ⟨entries, -, holds⟩ := (reads _).1 rfl
  exact List.forall_mem_map.1 holds.isListItem

/-- A group of check boxes with an entry that is blank and spaces around the others. -/
def paddedGroup : Element :=
  ⟨"CheckboxGroup", .ofList [("values", .string " a, ,b ")], []⟩

theorem paddedGroup_listAttribute :
    paddedGroup.literal? "values" = some " a, ,b " ∧
      paddedGroup.listAttribute "values" = ["a", "b"] := by
  have given : paddedGroup.literal? "values" = some " a, ,b " := rfl
  have space : ∀ character ∈ [' '], isBlank character = true := List.forall_mem_singleton.2 rfl
  have letter {character : Char} (shown : isBlank character = false)
      (different : ',' ≠ character) : IsListItem [character] :=
    ⟨List.cons_ne_nil _ _, by simpa using different, by simp [shown], by simp [shown]⟩
  have holds : HoldsItems [[' '] ++ ['a'] ++ [], [' '], [] ++ ['b'] ++ [' ']] [['a'], ['b']] :=
    .item space nofun (letter rfl (by decide))
      (.blank space (.item nofun space (letter rfl (by decide)) .nil))
  obtain ⟨-, reads⟩ := Element.listAttribute_eq_iff given
  exact ⟨given, (reads _).2 ⟨_, rfl, holds⟩⟩

end MessageBlocks
