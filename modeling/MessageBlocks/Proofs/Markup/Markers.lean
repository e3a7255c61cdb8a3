import MessageBlocks.Markup.Numbering
import MessageBlocks.Proofs.Text.Escape

/-!
# The characters of markers

The marker of an item is a bullet, or a number with a period. Numbers are written with
letters and digits, and with a minus sign if they are negative.
-/

namespace MessageBlocks

/-- The characters of markers besides letters and digits. -/
def markerSigns : List Char :=
  ['-', '.', '•', '◦', '▪']

/-- Text of the characters that markers are made of. -/
def IsMarkerText (text : List Char) : Prop :=
  ∀ character ∈ text, character.isAlphanum = true ∨ character ∈ markerSigns

instance (text : List Char) : Decidable (IsMarkerText text) :=
  List.decidableBAll _ _

/-- What holds of the twenty-six characters from a first one on holds of the letters of a number. -/
theorem Numbering.forall_mem_alpha {first : Char} {law : Char → Prop}
    (letters : ∀ offset < 26, law (Char.ofNat (first.toNat + offset))) (number : Nat) :
    ∀ letter ∈ Numbering.alpha first number, law letter := by
  suffices ∀ letter ∈ Numbering.alphaReversed first number, law letter by
    intro letter member
    exact this letter (List.mem_reverse.1 member)
  fun_induction Numbering.alphaReversed first number with
  | case1 => exact nofun
  | case2 number ih =>
      exact List.forall_mem_cons.2 ⟨letters _ (Nat.mod_lt _ (by decide)), ih⟩

namespace IsMarkerText

variable {first second : List Char}

theorem append (isFirst : IsMarkerText first) (isSecond : IsMarkerText second) :
    IsMarkerText (first ++ second) :=
  List.forall_mem_append.2 ⟨isFirst, isSecond⟩

theorem digits (number : Nat) : IsMarkerText (Number.digits number) := by
  intro character member
  have isDigit : character.isDigit = true :=
    Nat.isDigit_of_mem_toDigits (by decide) (by decide) member
  exact .inl (by simp [Char.isAlphanum, isDigit])

theorem intText (number : Int) : IsMarkerText (Number.intText number) := by
  cases number with
  | ofNat magnitude => exact digits magnitude
  | negSucc magnitude =>
      have sign : IsMarkerText ['-'] := by decide
      exact sign.append (digits (magnitude + 1))

/-- The letters that number items are twenty-six characters from a first one on. -/
theorem alpha {first : Char}
    (letters : ∀ offset < 26, (Char.ofNat (first.toNat + offset)).isAlphanum = true)
    (number : Nat) : IsMarkerText (Numbering.alpha first number) := by
  have alphanumeric : ∀ letter ∈ Numbering.alpha first number, letter.isAlphanum = true :=
    Numbering.forall_mem_alpha letters number
  exact fun letter member => .inl (alphanumeric letter member)

/-- Roman numbers have no letters but those of the numerals. -/
theorem mem_romanNumerals {character : Char} (number : Nat) (numerals : List (Nat × List Char))
    (member : character ∈ Numbering.romanFrom number numerals) :
    ∃ numeral ∈ numerals, character ∈ numeral.2 := by
  induction numerals generalizing number with
  | nil => cases member
  | cons numeral rest ih =>
      obtain ⟨value, letters⟩ := numeral
      rw [Numbering.romanFrom] at member
      rcases List.mem_append.1 member with here | inRest
      · obtain ⟨copy, copyMember, inCopy⟩ := List.mem_flatten.1 here
        rw [List.eq_of_mem_replicate copyMember] at inCopy
        exact ⟨_, List.mem_cons_self, inCopy⟩
      · obtain ⟨other, otherMember, inOther⟩ := ih _ inRest
        exact ⟨other, List.mem_cons_of_mem _ otherMember, inOther⟩

theorem roman (number : Nat) : IsMarkerText (Numbering.roman number) ∧
    IsMarkerText ((Numbering.roman number).map Char.toUpper) := by
  have letters : ∀ numeral ∈ Numbering.romanNumerals,
      IsMarkerText numeral.2 ∧ IsMarkerText (numeral.2.map Char.toUpper) := by
    decide
  constructor
  · intro character member
    obtain ⟨numeral, numeralMember, inNumeral⟩ := mem_romanNumerals _ _ member
    exact (letters numeral numeralMember).1 character inNumeral
  · intro character member
    obtain ⟨original, originalMember, rfl⟩ := List.mem_map.1 member
    obtain ⟨numeral, numeralMember, inNumeral⟩ := mem_romanNumerals _ _ originalMember
    exact (letters numeral numeralMember).2 _ (List.mem_map_of_mem inNumeral)

theorem positiveText (numbering : Numbering) (number : Nat) :
    IsMarkerText (numbering.positiveText number) := by
  cases numbering with
  | decimal => exact digits number
  | lowerAlpha => exact alpha (by decide) number
  | upperAlpha => exact alpha (by decide) number
  | lowerRoman =>
      rw [Numbering.positiveText]
      split
      · exact digits number
      · exact (roman number).1
  | upperRoman =>
      rw [Numbering.positiveText]
      split
      · exact digits number
      · exact (roman number).2

theorem marker (kind : ListKind) (depth : Nat) (number : Int64) :
    IsMarkerText (kind.marker depth number) := by
  cases kind with
  | unordered =>
      intro character member
      obtain rfl := List.mem_singleton.1 member
      rw [bullet.eq_def]
      split <;> decide
  | ordered numbering start =>
      apply append
      · rw [Numbering.text]
        split
        · exact positiveText numbering _
        · exact intText _
      · decide

end IsMarkerText

/-- No other punctuation and no spacing stands in a marker. -/
theorem ListKind.notMem_marker {character : Char} (notAlphanumeric : character.isAlphanum = false)
    (notSign : character ∉ markerSigns) (kind : ListKind) (depth : Nat) (number : Int64) :
    character ∉ kind.marker depth number := by
  intro member
  rcases IsMarkerText.marker kind depth number character member with alphanumeric | sign
  · simp [alphanumeric] at notAlphanumeric
  · exact notSign sign

theorem IsSober.marker (kind : ListKind) (depth : Nat) (number : Int64) :
    IsSober (kind.marker depth number) := by
  intro character member
  refine ⟨?_, ?_, ?_⟩ <;> rintro rfl <;>
    exact ListKind.notMem_marker (by decide) (by decide) kind depth number member

end MessageBlocks
