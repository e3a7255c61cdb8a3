import MessageBlocks.Number.Text
import MessageBlocks.Proofs.Number.Digits
import MessageBlocks.Proofs.Number.Shortest
import MessageBlocks.Text.Blank

/-!
# Decimals read from their text

A decimal in positional notation is read as a whole number and a power of ten with the same value,
whether zeros were left out at its end or filled in before its point. So the text of a double is
read to that double.
-/

namespace MessageBlocks.Number

/-- The digits after the point of a decimal, without the zeros at their end. -/
def Decimal.fractionDigits (coefficient places : ℕ) : List Char :=
  ((List.replicate (places - (digits (coefficient % powerOfTen places)).length) '0' ++
    digits (coefficient % powerOfTen places)).reverse.dropWhile (· == '0')).reverse

/-- What is left out at the end of a text by dropping zeros there is a number of zeros. -/
theorem exists_dropped_zeros (text : List Char) :
    ∃ zeros, text = (text.reverse.dropWhile (· == '0')).reverse ++ List.replicate zeros '0' := by
  refine ⟨(text.reverse.takeWhile (· == '0')).length, ?_⟩
  have isZero : ∀ character ∈ text.reverse.takeWhile (· == '0'), character = '0' := by
    intro character member
    have zero := List.mem_takeWhile_imp member
    exact beq_iff_eq.1 zero
  have parts : text.reverse.takeWhile (· == '0') ++ text.reverse.dropWhile (· == '0') =
      text.reverse := List.takeWhile_append_dropWhile
  rw [List.eq_replicate_of_mem isZero] at parts
  have reversed := congrArg List.reverse parts
  rw [List.reverse_append, List.reverse_replicate, List.reverse_reverse] at reversed
  exact reversed.symm

theorem Decimal.fractionDigits_spec (coefficient : ℕ) {places : ℕ} (some : 0 < places) :
    (∀ character ∈ fractionDigits coefficient places, character.isDigit = true) ∧
      ∃ zeros, places = (fractionDigits coefficient places).length + zeros ∧
        coefficient % 10 ^ places = ofDigits (fractionDigits coefficient places) * 10 ^ zeros := by
  have below : coefficient % 10 ^ places < 10 ^ places :=
    Nat.mod_lt _ (Nat.pow_pos (by norm_num))
  have short : (digits (coefficient % 10 ^ places)).length ≤ places :=
    (Nat.length_toDigits_le_iff (by norm_num) some).2 below
  obtain ⟨zeros, padded⟩ := exists_dropped_zeros
    (List.replicate (places - (digits (coefficient % 10 ^ places)).length) '0' ++
      digits (coefficient % 10 ^ places))
  change _ = fractionDigits coefficient places ++ _ at padded
  refine ⟨?_, zeros, ?_, ?_⟩
  · intro character member
    have inPadded := List.mem_append_left (List.replicate zeros '0') member
    rw [← padded] at inPadded
    rcases List.mem_append.1 inPadded with inZeros | inDigits
    · rw [List.eq_of_mem_replicate inZeros]
      rfl
    · exact isDigit_of_mem_digits inDigits
  · have lengths := congrArg List.length padded
    rw [List.length_append, List.length_append, List.length_replicate, List.length_replicate]
      at lengths
    omega
  · have values := congrArg ofDigits padded
    rw [ofDigits_append, ofDigits_append, ofDigits_replicate_zero, ofDigits_replicate_zero,
      ofDigits_digits, List.length_replicate, zero_mul, zero_add, add_zero] at values
    exact values

theorem Decimal.text_of_neg {number : Decimal} (negative : number.exponent < 0) :
    number.text = digits (number.coefficient / powerOfTen (-number.exponent).toNat) ++
      if (fractionDigits number.coefficient (-number.exponent).toNat).isEmpty then []
      else '.' :: fractionDigits number.coefficient (-number.exponent).toNat := by
  rw [text, if_neg (by omega)]
  rfl

/-- A text is read as a magnitude with a given value. -/
def ReadsAs (text : List Char) (value : ℚ) : Prop :=
  ∃ coefficient exponent, readMagnitude? text = some (nearestFloat coefficient exponent) ∧
    (coefficient : ℚ) * 10 ^ exponent = value

/-- A text of a whole number and a fraction, either of which has no point. -/
theorem readsAs_fraction {whole fraction : List Char} (some : whole ≠ [])
    (wholeDigits : ∀ character ∈ whole, character.isDigit = true)
    (fractionDigits : ∀ character ∈ fraction, character.isDigit = true) :
    ReadsAs (whole ++ if fraction.isEmpty then [] else '.' :: fraction)
      (ofDigits whole + ofDigits fraction * 10 ^ (-fraction.length : ℤ)) := by
  refine ⟨ofDigits (whole ++ fraction), -fraction.length, ?_, ?_⟩
  · have present : whole.isEmpty = false := by simpa using some
    cases fraction with
    | nil => simp [readMagnitude?, spanDigits_digits wholeDigits, some, readExponent?]
    | cons first others =>
        have stops : ∀ character ∈ ('.' :: first :: others).head?, character.isDigit = false := by
          simp
        simp [readMagnitude?, spanDigits_append wholeDigits _ stops,
          spanDigits_digits fractionDigits, readExponent?]
  · have power : (10 : ℚ) ^ fraction.length * 10 ^ (-fraction.length : ℤ) = 1 := by
      rw [zpow_neg, zpow_natCast, mul_inv_cancel₀ (by positivity)]
    rw [ofDigits_append]
    push_cast
    rw [add_mul, mul_assoc, power, mul_one]

theorem readsAs_digits (number : ℕ) : ReadsAs (digits number) number := by
  have noFraction : ∀ character ∈ ([] : List Char), character.isDigit = true := by simp
  have read := readsAs_fraction (digits_ne_nil number) (fun _ => isDigit_of_mem_digits) noFraction
  rw [List.isEmpty_nil, if_pos rfl, List.append_nil, ofDigits_digits] at read
  simpa [ofDigits] using read

theorem Decimal.readsAs_text (number : Decimal) :
    ReadsAs number.text (number.coefficient * 10 ^ number.exponent) := by
  by_cases negative : number.exponent < 0
  · obtain ⟨places, exponent⟩ : ∃ places : ℕ, number.exponent = -(places : ℤ) :=
      ⟨(-number.exponent).toNat, by omega⟩
    have amount : (-number.exponent).toNat = places := by omega
    obtain ⟨isDigits, zeros, lengths, values⟩ :=
      fractionDigits_spec number.coefficient (by omega : 0 < places)
    have read := readsAs_fraction (digits_ne_nil (number.coefficient / powerOfTen places))
      (fun _ => isDigit_of_mem_digits) isDigits
    rw [ofDigits_digits] at read
    have value : (number.coefficient * 10 ^ number.exponent : ℚ) =
        (number.coefficient / powerOfTen places : ℕ) +
          ofDigits (fractionDigits number.coefficient places) *
            10 ^ (-(fractionDigits number.coefficient places).length : ℤ) := by
      have parts := Nat.div_add_mod number.coefficient (10 ^ places)
      rw [values] at parts
      have partsRat : (number.coefficient : ℚ) =
          10 ^ places * (number.coefficient / 10 ^ places : ℕ) +
            ofDigits (fractionDigits number.coefficient places) * 10 ^ zeros := by
        exact_mod_cast parts.symm
      have power : (10 : ℚ) ^ places =
          10 ^ (fractionDigits number.coefficient places).length * 10 ^ zeros := by
        rw [← pow_add, ← lengths]
      rw [exponent, zpow_neg, zpow_neg, zpow_natCast, zpow_natCast, partsRat, power]
      change _ = ((number.coefficient / 10 ^ places : ℕ) : ℚ) + _
      field_simp
    rw [text_of_neg negative, amount, value]
    exact read
  · have power : (10 : ℚ) ^ number.exponent = 10 ^ number.exponent.toNat := by
      rw [← zpow_natCast, Int.toNat_of_nonneg (by omega)]
    have read := readsAs_digits (number.coefficient * powerOfTen number.exponent.toNat)
    rw [Nat.cast_mul, powerOfTen, Nat.pow_eq, Nat.cast_pow, Nat.cast_ofNat, ← power] at read
    rw [text, if_pos (by omega)]
    exact read

theorem isDigit_iff {character : Char} :
    character.isDigit = true ↔ 48 ≤ character.toNat ∧ character.toNat ≤ 57 := by
  simp only [Char.isDigit, Bool.and_eq_true, decide_eq_true_eq, ge_iff_le, UInt32.le_iff_toNat_le]
  rfl

theorem toLower_of_isDigit {character : Char} (digit : character.isDigit = true) :
    character.toLower = character := by
  have small := (isDigit_iff.1 digit).2
  have notUpper : ¬ (character.val ≥ 'A'.val ∧ character.val ≤ 'Z'.val) := by
    rintro ⟨large, -⟩
    have large : 65 ≤ character.toNat := UInt32.le_iff_toNat_le.1 large
    omega
  exact dif_neg notUpper

/-- A text that begins with a digit is none of the words for special values. -/
theorem readFloat?_eq {negative : Bool} {first : Char} {rest : List Char}
    (digit : first.isDigit = true) :
    readFloat? ((if negative then ['-'] else []) ++ first :: rest) =
      (readMagnitude? (first :: rest)).map fun magnitude =>
        if negative then -magnitude else magnitude := by
  have sign : spanSign ((if negative then ['-'] else []) ++ first :: rest) =
      (negative, first :: rest) := by
    cases negative with
    | true => rfl
    | false =>
        change spanSign (first :: rest) = _
        unfold spanSign
        split
        · next minus =>
            cases minus
            exact absurd digit (by decide)
        · next plus =>
            cases plus
            exact absurd digit (by decide)
        · rfl
  have notWord {word : String} {letter : Char} {letters : List Char}
      (spelled : word.toList = letter :: letters) (notDigit : letter.isDigit = false) :
      String.ofList (List.map Char.toLower (first :: rest)) ≠ word := by
    rintro rfl
    rw [String.toList_ofList, List.map_cons, toLower_of_isDigit digit, List.cons.injEq] at spelled
    rw [spelled.1, notDigit] at digit
    cases digit
  simp only [readFloat?, sign]
  congr 1
  split
  · next word => exact absurd word (notWord rfl rfl)
  · next word => exact absurd word (notWord rfl rfl)
  · next word => exact absurd word (notWord rfl rfl)
  · rfl

/-- A text without a sign: digits, perhaps with a point after the first of them. -/
structure IsNumeral (text : List Char) : Prop where
  head : ∃ first rest, text = first :: rest ∧ first.isDigit = true
  plain : ∀ character ∈ text, character.isDigit = true ∨ character = '.'

theorem isNumeral_digits (number : ℕ) : IsNumeral (digits number) := by
  obtain ⟨first, rest, split⟩ := List.exists_cons_of_ne_nil (digits_ne_nil number)
  exact ⟨⟨first, rest, split, isDigit_of_mem_digits (split ▸ List.mem_cons_self)⟩,
    fun _ member => .inl (isDigit_of_mem_digits member)⟩

theorem Decimal.isNumeral_text (number : Decimal) : IsNumeral number.text := by
  by_cases negative : number.exponent < 0
  · rw [text_of_neg negative]
    obtain ⟨⟨first, rest, split, digit⟩, plain⟩ :=
      isNumeral_digits (number.coefficient / powerOfTen (-number.exponent).toNat)
    have isDigits := (fractionDigits_spec number.coefficient
      (by omega : 0 < (-number.exponent).toNat)).1
    refine ⟨⟨first, _, by rw [split, List.cons_append], digit⟩, ?_⟩
    intro character member
    rcases List.mem_append.1 member with inWhole | inFraction
    · exact plain character inWhole
    · split at inFraction
      · cases inFraction
      · rcases List.mem_cons.1 inFraction with point | inDigits
        · exact .inr point
        · exact .inl (isDigits character inDigits)
  · rw [text, if_pos (by omega)]
    exact isNumeral_digits _

namespace Binary.IsCanonical

variable {number : Binary} (canonical : number.IsCanonical)

include canonical

/-- A numeral with a value in the interval of a double is read to the double, with its sign. -/
theorem readFloat?_eq_some (positive : 0 < number.mantissa) {text : List Char} {value : ℚ}
    (numeral : IsNumeral text) (reads : ReadsAs text value) (near : number.IsNearestTo value) :
    readFloat? ((if number.negative then ['-'] else []) ++ text) =
      some (number.toFloat positive) := by
  obtain ⟨⟨first, rest, rfl, digit⟩, -⟩ := numeral
  obtain ⟨coefficient, exponent, read, rfl⟩ := reads
  rw [readFloat?_eq digit, read, Option.map_some]
  obtain ⟨negative, mantissa, power⟩ := number
  have unsigned : IsCanonical ⟨false, mantissa, power⟩ :=
    ⟨canonical.mantissa_lt, canonical.full, canonical.least_le, canonical.le_greatest⟩
  have unsignedNear : IsNearestTo ⟨false, mantissa, power⟩ (coefficient * 10 ^ exponent) :=
    ⟨near.above, near.below, near.strict⟩
  rw [unsigned.nearestFloat_eq positive unsignedNear rfl]
  cases negative with
  | false => rfl
  | true => exact congrArg some (unsigned.neg_toFloat positive)

end Binary.IsCanonical

end MessageBlocks.Number
