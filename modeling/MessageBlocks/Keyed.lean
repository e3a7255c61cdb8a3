/-!
# Entries sorted by key

A finite map is a list of entries whose keys increase strictly, so that equal
maps are equal lists. Strings and characters increase by code point, which is
the order of their UTF-8 bytes.
-/

namespace MessageBlocks.Keyed

variable {κ α : Type} [LT κ] [DecidableLT κ] [DecidableEq κ]

def Sorted (entries : List (κ × α)) : Prop :=
  entries.Pairwise fun first second => first.1 < second.1

/-- Put an entry in its place. It replaces an entry with the same key. -/
def insert (key : κ) (value : α) : List (κ × α) → List (κ × α)
  | [] => [(key, value)]
  | entry :: rest =>
      if key < entry.1 then (key, value) :: entry :: rest
      else if key = entry.1 then (key, value) :: rest
      else entry :: insert key value rest

/-- The sorted entries of a list in which a later entry wins over an earlier
one with the same key. -/
def ofList (entries : List (κ × α)) : List (κ × α) :=
  entries.foldl (fun sorted entry => insert entry.1 entry.2 sorted) []

omit [LT κ] [DecidableLT κ] in
def find? (key : κ) : List (κ × α) → Option α
  | [] => none
  | entry :: rest => if key = entry.1 then some entry.2 else find? key rest

omit [DecidableLT κ] [DecidableEq κ] in
theorem sorted_nil : Sorted ([] : List (κ × α)) :=
  List.Pairwise.nil

theorem mem_insert {key : κ} {value : α} {entries : List (κ × α)} {entry : κ × α}
    (member : entry ∈ insert key value entries) :
    entry = (key, value) ∨ entry ∈ entries := by
  induction entries with
  | nil => simpa [insert] using member
  | cons head rest ih =>
      unfold insert at member
      split at member
      · simpa using member
      · split at member
        · rcases List.mem_cons.1 member with rfl | inRest
          · exact .inl rfl
          · exact .inr (List.mem_cons_of_mem _ inRest)
        · rcases List.mem_cons.1 member with rfl | inRest
          · exact .inr List.mem_cons_self
          · exact (ih inRest).imp id (List.mem_cons_of_mem _)

theorem sorted_insert [LE κ] [Std.IsLinearOrder κ] [Std.LawfulOrderLT κ]
    (key : κ) (value : α) {entries : List (κ × α)} (sorted : Sorted entries) :
    Sorted (insert key value entries) := by
  induction entries with
  | nil => simp [insert, Sorted]
  | cons head rest ih =>
      have headBelow := (List.pairwise_cons.1 sorted).1
      have restSorted := (List.pairwise_cons.1 sorted).2
      unfold insert
      split
      · next before =>
          refine List.pairwise_cons.2 ⟨fun entry member => ?_, sorted⟩
          rcases List.mem_cons.1 member with rfl | inRest
          · exact before
          · exact Std.lt_trans before (headBelow entry inRest)
      · split
        · next same =>
            exact List.pairwise_cons.2
              ⟨fun entry member => same ▸ headBelow entry member, restSorted⟩
        · next notBefore notSame =>
            refine List.pairwise_cons.2 ⟨fun entry member => ?_, ih restSorted⟩
            rcases mem_insert member with rfl | inRest
            · exact Std.lt_of_le_of_ne (Std.not_lt.1 notBefore) (Ne.symm notSame)
            · exact headBelow entry inRest

theorem sorted_ofList [LE κ] [Std.IsLinearOrder κ] [Std.LawfulOrderLT κ]
    (entries : List (κ × α)) : Sorted (ofList entries) := by
  suffices ∀ sorted : List (κ × α), Sorted sorted →
      Sorted (entries.foldl (fun sorted entry => insert entry.1 entry.2 sorted) sorted) from
    this [] sorted_nil
  induction entries with
  | nil => exact fun _ isSorted => isSorted
  | cons entry rest ih => exact fun _ isSorted => ih _ (sorted_insert _ _ isSorted)

omit [LT κ] [DecidableLT κ] in
theorem mem_of_find?_eq_some {key : κ} {value : α} {entries : List (κ × α)}
    (found : find? key entries = some value) : (key, value) ∈ entries := by
  induction entries with
  | nil => cases found
  | cons entry rest ih =>
      rw [find?] at found
      split at found
      · next same =>
          obtain rfl : entry.2 = value := Option.some.inj found
          rw [same]
          exact List.mem_cons_self
      · exact List.mem_cons_of_mem _ (ih found)

/-- Inserting an entry changes the value of its key and no other. -/
theorem find?_insert (key wanted : κ) (value : α) (entries : List (κ × α)) :
    find? wanted (insert key value entries) =
      if wanted = key then some value else find? wanted entries := by
  induction entries with
  | nil => rfl
  | cons head rest ih =>
      unfold insert
      split
      · rfl
      · split
        · next same =>
            by_cases wantedSame : wanted = key
            · simp [find?, wantedSame]
            · simp [find?, wantedSame, same ▸ wantedSame]
        · next notSame =>
            by_cases wantedHead : wanted = head.1
            · subst wantedHead
              simp [find?, Ne.symm notSame]
            · simp [find?, wantedHead, ih]

omit [DecidableLT κ] in
/-- A key below all keys of a map has no value. -/
theorem find?_eq_none_of_below [LE κ] [Std.IsLinearOrder κ] [Std.LawfulOrderLT κ] {key : κ}
    {entries : List (κ × α)} (below : ∀ entry ∈ entries, key < entry.1) :
    find? key entries = none := by
  induction entries with
  | nil => rfl
  | cons head rest ih =>
      have notHead : key ≠ head.1 := Std.ne_of_lt (below head List.mem_cons_self)
      simp [find?, notHead, ih fun entry member => below entry (List.mem_cons_of_mem _ member)]

end MessageBlocks.Keyed
