import MessageBlocks.Proofs.Number.DecimalText
import MessageBlocks.Markup.OfTree

/-!
# Numbers read from their literals

The literal of a finite number is read to that number, whether it is written as an integer or with
its shortest decimal. Only negative zero loses its sign.
-/

namespace MessageBlocks

open Number

theorem Number.Binary.whole_eq_magnitude {number : Binary} (integral : number.isIntegral = true) :
    (number.whole : ℚ) = number.magnitude := by
  rw [Binary.whole, Binary.magnitude]
  by_cases sign : 0 ≤ number.exponent
  · have power : (2 : ℚ) ^ number.exponent = 2 ^ number.exponent.toNat := by
      rw [← zpow_natCast, Int.toNat_of_nonneg sign]
    rw [if_pos sign, Nat.cast_mul, powerOfTwo, Nat.pow_eq, Nat.cast_pow, Nat.cast_ofNat, power]
  · have divides : powerOfTwo (-number.exponent).toNat ∣ number.mantissa := by
      rw [Binary.isIntegral, Bool.or_eq_true, decide_eq_true_eq, beq_iff_eq] at integral
      exact Nat.dvd_of_mod_eq_zero (integral.resolve_left sign)
    have power : (2 : ℚ) ^ number.exponent = (2 ^ (-number.exponent).toNat)⁻¹ := by
      rw [← zpow_natCast, ← zpow_neg, Int.toNat_of_nonneg (by omega), neg_neg]
    have nonzero : ((powerOfTwo (-number.exponent).toNat : ℕ) : ℚ) ≠ 0 := by
      exact_mod_cast (Nat.two_pow_pos _).ne'
    rw [if_neg sign, Nat.cast_div divides nonzero, powerOfTwo, Nat.pow_eq, Nat.cast_pow,
      Nat.cast_ofNat, power, div_eq_mul_inv]

namespace Text

theorem trim_eq_self {text : List Char} (visible : ∀ character ∈ text, isBlank character = false) :
    trim text = text := by
  have drop {list : List Char} (plain : ∀ character ∈ list, isBlank character = false) :
      list.dropWhile isBlank = list := by
    cases list with
    | nil => rfl
    | cons first rest =>
        have shown : isBlank first = false := plain first List.mem_cons_self
        rw [List.dropWhile_cons_of_neg (by simp [shown])]
  rw [trim, trimBy, trimStartBy, trimEndBy, drop visible,
    drop fun character member => visible character (List.mem_reverse.1 member),
    List.reverse_reverse]

end Text

namespace AttributeValue

/-- A digit, a point and a minus are no blank characters. -/
theorem isBlank_of_isNumeral {text : List Char} (numeral : IsNumeral text) (negative : Bool) :
    ∀ character ∈ (if negative then ['-'] else []) ++ text, Text.isBlank character = false := by
  intro character member
  rcases List.mem_append.1 member with inSign | inText
  · cases negative with
    | false => cases inSign
    | true =>
        obtain rfl := List.mem_singleton.1 inSign
        rfl
  · rcases numeral.plain character inText with digit | rfl
    · obtain ⟨least, greatest⟩ := isDigit_iff.1 digit
      rw [Bool.eq_false_iff]
      intro blank
      simp only [Text.isBlank, Bool.or_eq_true, Bool.and_eq_true, decide_eq_true_eq, beq_iff_eq]
        at blank
      omega
    · rfl

theorem intText_truncate {number : Binary} (some : 0 < number.whole) :
    intText number.truncate = (if number.negative then ['-'] else []) ++ digits number.whole := by
  rw [Binary.truncate]
  cases number.negative with
  | false => rfl
  | true =>
      obtain ⟨before, next⟩ : ∃ before, number.whole = before + 1 := ⟨number.whole - 1, by omega⟩
      rw [next]
      rfl

/-- The text of a nonzero number is its sign and a numeral that is read to its magnitude. -/
theorem numberText_spec {value : Float} {number : Binary}
    (read : Binary.ofFloat? value = some number) (positive : 0 < number.mantissa) :
    ∃ text amount, numberText value = (if number.negative then ['-'] else []) ++ text ∧
      IsNumeral text ∧ ReadsAs text amount ∧ number.IsNearestTo amount := by
  have canonical := Binary.IsCanonical.of_ofFloat? read
  simp only [numberText, read]
  split
  · next whole =>
      have integral : number.isIntegral = true := (Bool.and_eq_true _ _ ▸ whole).1
      have amount := Binary.whole_eq_magnitude integral
      refine ⟨digits number.whole, number.whole, ?_, isNumeral_digits _, readsAs_digits _, ?_⟩
      · apply intText_truncate
        have some : (0 : ℚ) < number.whole := by
          rw [amount]
          exact mul_pos (by exact_mod_cast positive) (Rounding.two_zpow_pos _)
        exact_mod_cast some
      · rw [amount]
        exact number.isNearestTo_magnitude
  · refine ⟨(shortest number).text, _, ?_, (shortest number).isNumeral_text,
      (shortest number).readsAs_text, canonical.isNearestTo_shortest positive⟩
    simp only [floatText, read, if_neg positive.ne']

/-- The text of a finite number is read to that number. Only negative zero loses its sign. -/
theorem readFloat?_numberText {value : Float} {number : Binary}
    (read : Binary.ofFloat? value = some number) :
    readFloat? (Text.trim (numberText value)) =
      some (if number.mantissa = 0 then 0 else value) := by
  by_cases zero : number.mantissa = 0
  · have spelled : numberText value = ['0'] := by
      have whole : number.whole = 0 := by simp [Binary.whole, zero]
      have truncated : number.truncate = 0 := by simp [Binary.truncate, whole]
      have integral : number.isIntegral = true := by simp [Binary.isIntegral, zero]
      simp only [numberText, read, integral, truncated]
      rfl
    rw [spelled, if_pos zero]
    rfl
  · have positive : 0 < number.mantissa := Nat.pos_of_ne_zero zero
    obtain ⟨text, amount, spelled, numeral, reads, near⟩ := numberText_spec read positive
    have canonical := Binary.IsCanonical.of_ofFloat? read
    rw [spelled, Text.trim_eq_self (isBlank_of_isNumeral numeral number.negative),
      canonical.readFloat?_eq_some positive numeral reads near, if_neg zero,
      ← eq_toFloat_of_ofFloat? read positive]

/-- The text of an infinity or of NaN is the word for it. -/
theorem readFloat?_numberText_of_none {value : Float} (special : Binary.ofFloat? value = none) :
    readFloat? (Text.trim (numberText value)) =
      some (if value.isNaN then 0 / 0 else if isNegative value then -(1 / 0) else 1 / 0) := by
  simp only [numberText, special, floatText]
  cases value.isNaN with
  | true => rfl
  | false => cases isNegative value <;> rfl

/-- Both zeros stand for the integer zero. -/
theorem integers_of_zero {value : Float} {number : Binary}
    (read : Binary.ofFloat? value = some number) (zero : number.mantissa = 0) :
    toInt64Clamped value = 0 ∧ Markup.listNumber? value = some 0 := by
  have truncated : number.truncate = 0 := by simp [Binary.truncate, Binary.whole, zero]
  rw [toInt64Clamped, Markup.listNumber?, read]
  simp only [truncated]
  exact ⟨rfl, rfl⟩

/-- The text of a number is read to a number that stands for the same integers. -/
theorem exists_read_numberText (value : Float) :
    ∃ read, readFloat? (Text.trim (numberText value)) = some read ∧
      toInt64Clamped read = toInt64Clamped value ∧
      Markup.listNumber? read = Markup.listNumber? value := by
  cases read : Binary.ofFloat? value with
  | none =>
      have clamped : toInt64Clamped value =
          if value.isNaN then 0 else if isNegative value then minInt64 else maxInt64 := by
        rw [toInt64Clamped, read]
      have noNumber : Markup.listNumber? value = none := by rw [Markup.listNumber?, read]
      refine ⟨_, readFloat?_numberText_of_none read, ?_⟩
      rw [clamped, noNumber]
      by_cases undefined : value.isNaN = true
      · rw [if_pos undefined, if_pos undefined]
        decide +kernel
      · rw [if_neg undefined, if_neg undefined]
        cases isNegative value <;> decide +kernel
  | some number =>
      refine ⟨_, readFloat?_numberText read, ?_⟩
      by_cases zero : number.mantissa = 0
      · have zeroRead : Binary.ofFloat? 0 = some ⟨false, 0, -1074⟩ := by decide +kernel
        obtain ⟨clamped, listed⟩ := integers_of_zero read zero
        obtain ⟨zeroClamped, zeroListed⟩ := integers_of_zero zeroRead rfl
        rw [if_pos zero, clamped, listed]
        exact ⟨zeroClamped, zeroListed⟩
      · rw [if_neg zero]
        exact ⟨rfl, rfl⟩

end AttributeValue

end MessageBlocks
