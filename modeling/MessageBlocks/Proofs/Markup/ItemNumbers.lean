import MessageBlocks.Proofs.Markup.Alignment

/-!
# Numbers of items

The numbers of a list are counted on from item to item, up to the greatest number of 64 bits, which
then repeats. An item with a number of its own restarts the count. So the number of each item is
known from the last restart before it alone, whatever has become of the count before.
-/

namespace MessageBlocks

namespace ListItem

/-- The numbering is restarted at the item with index `origin`, where the number is given as
`value`, and not again up to the item with index `place`. -/
structure IsRestart (items : List ListItem) (place origin : ℕ) (value : Int64) : Prop where
  le : origin ≤ place
  own : items[origin]?.bind ListItem.number = some value
  later : ∀ other, origin < other → other ≤ place → items[other]?.bind ListItem.number = none

/-- One step of the count: it stops at the greatest number. -/
theorem toInt_nextNumber (number : Int64) :
    (nextNumber number).toInt = min (2 ^ 63 - 1) (number.toInt + 1) := by
  have atMost := Int64.toInt_lt number
  have atLeast := Int64.le_toInt number
  rw [nextNumber]
  split
  case isTrue greatest =>
    rw [greatest, Int64.toInt_maxValue]
    omega
  case isFalse smaller =>
    have below : number.toInt ≠ 2 ^ 63 - 1 := by
      rw [← Int64.toInt_maxValue]
      exact fun same => smaller (Int64.toInt_inj.1 same)
    rw [Int64.toInt_add, Int64.toInt_one, Int.bmod_eq_of_le (by omega) (by omega)]
    omega

/-- A whole run of the count: while no item has a number of its own, the first number grows by one
with each item until it is the greatest. -/
theorem toInt_of_counting {first number : Int64} {items : List ListItem} {place : ℕ}
    (found : (first :: numbers (nextNumber first) items)[place]? = some number)
    (free : ∀ other < place, items[other]?.bind ListItem.number = none) :
    number.toInt = min (2 ^ 63 - 1) (first.toInt + place) := by
  induction place generalizing first items with
  | zero =>
      obtain rfl : first = number := by simpa using found
      have atMost := Int64.toInt_lt first
      omega
  | succ place ih =>
      cases items with
      | nil => simp [numbers] at found
      | cons item rest =>
          have unnumbered : item.number = none := free 0 place.succ_pos
          have next : (nextNumber first :: numbers (nextNumber (nextNumber first)) rest)[place]? =
              some number := by simpa [numbers, unnumbered] using found
          have following := ih next fun other before => free (other + 1) (Nat.succ_lt_succ before)
          rw [toInt_nextNumber] at following
          omega

/-- From any item on, a list is numbered as one that consists of the other items, for some number
that is due there. -/
theorem exists_drop_numbers (start : Int64) (items : List ListItem) (place : ℕ) :
    ∃ due, (numbers start items).drop place = numbers due (items.drop place) := by
  induction place generalizing start items with
  | zero => exact ⟨start, rfl⟩
  | succ place ih =>
      cases items with
      | nil => exact ⟨start, rfl⟩
      | cons item rest => exact ih (nextNumber (item.number.getD start)) rest

/-- The number of an item follows from the last restart at the item or before it. -/
theorem IsRestart.toInt_eq {items : List ListItem} {place origin : ℕ} {value start number : Int64}
    (restart : IsRestart items place origin value)
    (found : (numbers start items)[place]? = some number) :
    number.toInt = min (2 ^ 63 - 1) (value.toInt + (place - origin)) := by
  obtain ⟨item, atOrigin, own⟩ := Option.bind_eq_some_iff.1 restart.own
  obtain ⟨inside, rfl⟩ := List.getElem?_eq_some_iff.1 atOrigin
  obtain ⟨due, dropped⟩ := exists_drop_numbers start items origin
  have fromOrigin : (numbers due (items.drop origin))[place - origin]? = some number := by
    rw [← dropped, List.getElem?_drop, Nat.add_sub_cancel' restart.le, found]
  -- what was due at the restart is not used
  rw [List.drop_eq_getElem_cons inside, numbers, own, Option.getD_some] at fromOrigin
  have counted := toInt_of_counting fromOrigin fun other before => by
    rw [List.getElem?_drop]
    exact restart.later _ (by omega) (by omega)
  rw [counted, Int.ofNat_sub restart.le]

/-- In front of all restarts the numbers are counted from the start of the list. -/
theorem toInt_of_no_restart {items : List ListItem} {place : ℕ} {start number : Int64}
    (free : ∀ other ≤ place, items[other]?.bind ListItem.number = none)
    (found : (numbers start items)[place]? = some number) :
    number.toInt = min (2 ^ 63 - 1) (start.toInt + place) := by
  cases items with
  | nil => simp [numbers] at found
  | cons item rest =>
      have unnumbered : item.number = none := free 0 place.zero_le
      rw [numbers, unnumbered] at found
      exact toInt_of_counting found fun other before => free (other + 1) before

end ListItem

/-- How ordered lists are numbered. Each item has one marker, that of its number. The number is
counted from the last number that is given at the item or before it, or from the start of the list
if none is, and stops at the greatest number. -/
theorem ordered_list_numbering {W : Type} [Width W] (engine : Engine W) (numbering : Numbering)
    (start : Int64) (depth : ℕ) (items : List ListItem) :
    (Markup.piece depth (.list (.ordered numbering start) items)).answer engine =
        .block (List.zipWith (fun number item =>
          ListItem.lines engine ((ListKind.ordered numbering start).widest engine depth items)
            (numbering.text number ++ ['.'])
            ((Markup.lines (depth + 1) item.children).answer engine))
          (ListItem.numbers start items) items).flatten ∧
      (ListItem.numbers start items).length = items.length ∧
      ∀ place number, (ListItem.numbers start items)[place]? = some number →
        (∀ origin value, ListItem.IsRestart items place origin value →
          number.toInt = min (2 ^ 63 - 1) (value.toInt + (place - origin))) ∧
        ((∀ other ≤ place, items[other]?.bind ListItem.number = none) →
          number.toInt = min (2 ^ 63 - 1) (start.toInt + place)) := by
  refine ⟨?_, RenderLaw.length_numbers start items, fun place number found =>
    ⟨fun origin value restart => restart.toInt_eq found,
      fun free => ListItem.toInt_of_no_restart free found⟩⟩
  rw [Markup.piece_list_answer, ListKind.itemLines, ListKind.markers, List.zipWith_map_left]
  rfl

/-- Items behind which the count has reached its end once, and is then set to a negative number. -/
def restartedItems : List ListItem :=
  [⟨none, []⟩, ⟨none, []⟩, ⟨some (-2), []⟩, ⟨none, []⟩]

theorem restartedItems_isRestart : ListItem.IsRestart restartedItems 3 2 (-2) where
  le := by decide
  own := rfl
  later := by
    intro other after before
    obtain rfl : other = 3 := by omega
    rfl

/-- The greatest number repeats, and a restart leads away from it again. -/
theorem restartedItems_numbers :
    (∃ number, (ListItem.numbers Int64.maxValue restartedItems)[1]? = some number ∧
        number.toInt = 2 ^ 63 - 1) ∧
      ∃ number, (ListItem.numbers Int64.maxValue restartedItems)[3]? = some number ∧
        number.toInt = -1 := by
  obtain ⟨-, -, law⟩ :=
    ordered_list_numbering ⟨⟨[], []⟩, (0 : ℚ)⟩ .decimal Int64.maxValue 0 restartedItems
  have unrestarted : ∀ other ≤ 1, restartedItems[other]?.bind ListItem.number = none := by
    decide
  exact ⟨⟨_, by decide, (law 1 Int64.maxValue (by decide)).2 unrestarted⟩,
    ⟨_, by decide, (law 3 (-1) (by decide)).1 2 (-2) restartedItems_isRestart⟩⟩

end MessageBlocks
