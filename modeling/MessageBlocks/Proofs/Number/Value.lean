import MessageBlocks.Proofs.Number.Arithmetic

/-!
# The values of doubles

A finite double stands for a rational number. Comparing it with zero says the sign of that number,
so what has been checked of doubles is known of the numbers that they stand for.
-/

namespace MessageBlocks.Number

open Float.Model Float.Model.UnpackedFloat

/-- The number that a double stands for, zero if it is an infinity or NaN. -/
def exactValue (value : Float) : ℚ :=
  match Binary.ofFloat? value with
  | some number => if number.negative then -number.magnitude else number.magnitude
  | none => 0

variable {value : Float}

/-- A finite double has a binary fraction: all bits of its exponent are set in no other double. -/
theorem exists_ofFloat?_of_isFinite (isFinite : value.isFinite = true) :
    ∃ number, Binary.ofFloat? value = some number := by
  obtain ⟨⟨bits, valid⟩⟩ := value
  by_contra special
  have all : bits.toNat / powerOfTwo 52 % powerOfTwo 11 = 2047 := by
    by_contra other
    simp only [Binary.ofFloat?] at special
    split at special
    · next all => exact other all
    · split at special <;> exact special ⟨_, rfl⟩
  have exponent : @unpackExponent Format.binary64 bits.toBitVec = -1#11 := by
    apply BitVec.eq_of_toNat_eq
    rw [unpackExponent, BitVec.toNat_cast, BitVec.extractLsb_toNat, Nat.shiftRight_eq_div_pow]
    exact all
  have notFinite : (UnpackedFloat.unpack Format.binary64 bits.toBitVec).isFinite = false := by
    simp only [UnpackedFloat.unpack, exponent, if_true]
    split <;> rfl
  exact Bool.false_ne_true (notFinite.symm.trans isFinite)

/-- A double is unpacked to its binary fraction, or to a zero if the mantissa is zero. -/
theorem unpack_of_ofFloat? {number : Binary} (read : Binary.ofFloat? value = some number) :
    value.toModel.unpack =
      if positive : 0 < number.mantissa then
        .finite (signOf number.negative) number.mantissa number.exponent positive
      else .zero (signOf number.negative) := by
  have canonical := Binary.IsCanonical.of_ofFloat? read
  by_cases positive : 0 < number.mantissa
  · rw [dif_pos positive, eq_toFloat_of_ofFloat? read positive, canonical.unpack_toFloat]
  · obtain ⟨negative, mantissa, exponent⟩ := number
    obtain rfl : mantissa = 0 := Nat.eq_zero_of_not_pos positive
    obtain rfl : exponent = -1074 := canonical.full.resolve_left (by norm_num)
    rw [dif_neg positive]
    cases negative with
    | false =>
        have zero : Binary.ofFloat? 0 = some ⟨false, 0, -1074⟩ := by decide +kernel
        rw [ofFloat?_injective read zero]
        rfl
    | true =>
        have zero : Binary.ofFloat? (-0) = some ⟨true, 0, -1074⟩ := by decide +kernel
        rw [ofFloat?_injective read zero]
        rfl

/-- A finite double above zero has a binary fraction above zero. -/
theorem exists_ofFloat?_of_pos (isFinite : value.isFinite = true) (positive : 0 < value) :
    ∃ mantissa exponent,
      Binary.ofFloat? value = some ⟨false, mantissa, exponent⟩ ∧ 0 < mantissa := by
  obtain ⟨⟨negative, mantissa, exponent⟩, read⟩ := exists_ofFloat?_of_isFinite isFinite
  have compared : UnpackedFloat.lt (.zero .positive) value.toModel.unpack = true :=
    of_decide_eq_true positive
  rw [unpack_of_ofFloat? read] at compared
  split at compared
  · next nonzero =>
      cases negative with
      | true => cases compared
      | false => exact ⟨mantissa, exponent, read, nonzero⟩
  · cases compared

theorem exactValue_pos (isFinite : value.isFinite = true) (positive : 0 < value) :
    0 < exactValue value := by
  obtain ⟨mantissa, exponent, read, nonzero⟩ := exists_ofFloat?_of_pos isFinite positive
  rw [exactValue, read]
  exact mul_pos (by exact_mod_cast nonzero) (Rounding.two_zpow_pos exponent)

theorem exactValue_nonneg (isFinite : value.isFinite = true) (notNegative : ¬ value < 0) :
    0 ≤ exactValue value := by
  obtain ⟨⟨negative, mantissa, exponent⟩, read⟩ := exists_ofFloat?_of_isFinite isFinite
  have compared : ¬ UnpackedFloat.lt value.toModel.unpack (.zero .positive) = true :=
    fun below => notNegative (decide_eq_true below)
  have magnitude : 0 ≤ Binary.magnitude ⟨negative, mantissa, exponent⟩ :=
    mul_nonneg (Nat.cast_nonneg _) (Rounding.two_zpow_pos exponent).le
  rw [unpack_of_ofFloat? read] at compared
  simp only [exactValue, read]
  cases negative with
  | false => exact magnitude
  | true =>
      split at compared
      · exact absurd rfl compared
      · next isZero =>
          obtain rfl : mantissa = 0 := Nat.eq_zero_of_not_pos isZero
          simp [Binary.magnitude]

end MessageBlocks.Number
