import MessageBlocks.Number.Reading
import MessageBlocks.Proofs.Number.Arithmetic

/-!
# Decimals read to the nearest double

A decimal in the interval of a double is read to that double: its size is in the range that is
looked at, and whether its power of ten is exact or not, the product or quotient is rounded once.
-/

namespace MessageBlocks.Number

open Float.Model Float.Model.UnpackedFloat Rounding

theorem ten_zpow_pos (exponent : ℤ) : (0 : ℚ) < 10 ^ exponent :=
  zpow_pos (by norm_num) exponent

theorem two_pow_lt_ten_pow {count : ℕ} (positive : 0 < count) :
    (2 : ℚ) ^ (33 * count) < 10 ^ (10 * count) := by
  rw [pow_mul, pow_mul]
  exact pow_lt_pow_left₀ (by norm_num) (by norm_num) positive.ne'

/-- A number of so many digits lies between two powers of ten. -/
theorem digits_bounds {number : ℕ} (positive : 0 < number) :
    10 ^ ((Nat.toDigits 10 number).length - 1) ≤ number ∧
      number < 10 ^ (Nat.toDigits 10 number).length := by
  have some : 0 < (Nat.toDigits 10 number).length := Nat.length_toDigits_pos
  have upper : number < 10 ^ (Nat.toDigits 10 number).length :=
    (Nat.length_toDigits_le_iff (by norm_num) some).1 le_rfl
  refine ⟨?_, upper⟩
  by_cases one : (Nat.toDigits 10 number).length = 1
  · rw [one]
    omega
  · by_contra less
    have fewer := (Nat.length_toDigits_le_iff (by norm_num : 1 < 10)
      (by omega : 0 < (Nat.toDigits 10 number).length - 1)).2 (not_le.1 less)
    omega

/-- A decimal lies between two powers of ten, which its digits and its exponent give. -/
theorem decimal_bounds {coefficient : ℕ} (positive : 0 < coefficient) (exponent : ℤ) :
    (10 : ℚ) ^ (((Nat.toDigits 10 coefficient).length : ℤ) + exponent - 1) ≤
        coefficient * 10 ^ exponent ∧
      coefficient * 10 ^ exponent <
        (10 : ℚ) ^ (((Nat.toDigits 10 coefficient).length : ℤ) + exponent) := by
  have unit := ten_zpow_pos exponent
  have nonzero : (10 : ℚ) ≠ 0 := by norm_num
  have some : 0 < (Nat.toDigits 10 coefficient).length := Nat.length_toDigits_pos
  obtain ⟨low, high⟩ := digits_bounds positive
  have lowRat : (10 : ℚ) ^ ((Nat.toDigits 10 coefficient).length - 1) ≤ coefficient := by
    exact_mod_cast low
  have highRat : (coefficient : ℚ) < 10 ^ (Nat.toDigits 10 coefficient).length := by
    exact_mod_cast high
  have before : ((Nat.toDigits 10 coefficient).length : ℤ) + exponent - 1 =
      ((Nat.toDigits 10 coefficient).length - 1 : ℕ) + exponent := by omega
  rw [before, zpow_add₀ nonzero, zpow_add₀ nonzero, zpow_natCast, zpow_natCast]
  exact ⟨mul_le_mul_of_nonneg_right lowRat unit.le, mul_lt_mul_of_pos_right highRat unit⟩

namespace Binary.IsCanonical

variable {number : Binary} (canonical : number.IsCanonical) (positive : 0 < number.mantissa)

include canonical positive

/-- All values that round to positive doubles lie between two powers of two. -/
theorem value_bounds {value : ℚ} (near : number.IsNearestTo value) :
    (2 ^ 1075)⁻¹ ≤ value ∧ value < 2 ^ 1024 := by
  have unit := two_zpow_pos number.exponent
  have gap := number.gapBelow_le
  constructor
  · have mantissa : (1 : ℚ) ≤ number.mantissa := by exact_mod_cast positive
    have least : (2 : ℚ) ^ (-(1074 : ℕ) : ℤ) ≤ 2 ^ number.exponent :=
      zpow_le_zpow_right₀ one_le_two canonical.least_le
    rw [zpow_neg, zpow_natCast] at least
    calc ((2 : ℚ) ^ 1075)⁻¹ = 1 / 2 * (2 ^ 1074)⁻¹ := by
          rw [pow_succ, mul_inv, mul_comm, one_div]
      _ ≤ 1 / 2 * 2 ^ number.exponent := mul_le_mul_of_nonneg_left least (by norm_num)
      _ ≤ (number.mantissa - number.gapBelow) * 2 ^ number.exponent :=
          mul_le_mul_of_nonneg_right (by linarith) unit.le
      _ ≤ value := near.above
  · have greatest : (2 : ℚ) ^ number.exponent ≤ 2 ^ ((971 : ℕ) : ℤ) :=
      zpow_le_zpow_right₀ one_le_two canonical.le_greatest
    rw [zpow_natCast] at greatest
    calc value < 2 ^ 53 * 2 ^ number.exponent := canonical.value_lt near
      _ ≤ 2 ^ 53 * 2 ^ 971 := mul_le_mul_of_nonneg_left greatest (by positivity)
      _ = 2 ^ 1024 := (pow_add 2 53 971).symm

variable {coefficient : ℕ} {exponent : ℤ} (near : number.IsNearestTo (coefficient * 10 ^ exponent))

include near

theorem coefficient_pos : 0 < coefficient := by
  have value : (0 : ℚ) < coefficient * 10 ^ exponent :=
    lt_of_lt_of_le (by positivity) (canonical.value_bounds positive near).1
  by_contra zero
  obtain rfl : coefficient = 0 := by omega
  rw [Nat.cast_zero, zero_mul] at value
  exact lt_irrefl _ value

/-- The number of digits before the point of a decimal that is read to a double. -/
theorem size_bounds : -330 ≤ ((Nat.toDigits 10 coefficient).length : ℤ) + exponent ∧
    ((Nat.toDigits 10 coefficient).length : ℤ) + exponent ≤ 320 := by
  obtain ⟨lower, upper⟩ := canonical.value_bounds positive near
  obtain ⟨low, high⟩ := decimal_bounds (canonical.coefficient_pos positive near) exponent
  have one_lt_ten : (1 : ℚ) < 10 := by norm_num
  constructor
  · by_contra tiny
    have below : (10 : ℚ) ^ (((Nat.toDigits 10 coefficient).length : ℤ) + exponent) ≤
        10 ^ (-(330 : ℕ) : ℤ) := zpow_le_zpow_right₀ one_lt_ten.le (by omega)
    have powers : (2 : ℚ) ^ 1075 < 10 ^ 330 :=
      (pow_le_pow_right₀ one_le_two (by norm_num)).trans_lt
        (two_pow_lt_ten_pow (by norm_num : 0 < 33))
    have inverses : ((10 : ℚ) ^ 330)⁻¹ < (2 ^ 1075)⁻¹ := inv_strictAnti₀ (by positivity) powers
    rw [zpow_neg, zpow_natCast] at below
    exact absurd (lower.trans (high.le.trans below)) (not_le.2 inverses)
  · by_contra huge
    have above : (10 : ℚ) ^ ((320 : ℕ) : ℤ) ≤
        10 ^ (((Nat.toDigits 10 coefficient).length : ℤ) + exponent - 1) :=
      zpow_le_zpow_right₀ one_lt_ten.le (by omega)
    have powers : (2 : ℚ) ^ 1024 < 10 ^ 320 :=
      (pow_le_pow_right₀ one_le_two (by norm_num)).trans_lt
        (two_pow_lt_ten_pow (by norm_num : 0 < 32))
    rw [zpow_natCast] at above
    exact absurd (above.trans low) (not_le.2 (upper.trans powers))

theorem ofScientific_eq : UnpackedFloat.ofScientific .binary64 coefficient exponent =
    .finite .positive number.mantissa number.exponent positive := by
  have coefficientPos := canonical.coefficient_pos positive near
  obtain ⟨least, greatest⟩ := canonical.size_bounds positive near
  have some : 0 < (Nat.toDigits 10 coefficient).length := Nat.length_toDigits_pos
  have bits : (Nat.toDigits 10 coefficient).length - 1 ≤ coefficient.log2 := by
    rw [Nat.le_log2 coefficientPos.ne']
    exact (Nat.pow_le_pow_left (by norm_num) _).trans (digits_bounds coefficientPos).1
  have notHuge : ¬ exponent > 2 ^ Format.binary64.exponentBits := by
    have range : (2 : ℤ) ^ Format.binary64.exponentBits = 2048 := rfl
    omega
  have notTiny : ¬ exponent < -((2 : ℤ) ^ Format.binary64.exponentBits + coefficient.log2) := by
    have range : (2 : ℤ) ^ Format.binary64.exponentBits = 2048 := rfl
    omega
  rw [UnpackedFloat.ofScientific, dif_neg coefficientPos.ne', if_neg notHuge, if_neg notTiny]
  by_cases sign : 0 ≤ exponent
  · have value : (coefficient * 10 ^ exponent : ℚ) =
        ((coefficient <<< 53 : ℕ) * 2 ^ (-(53 : ℕ) : ℤ)) *
          ((10 ^ exponent.toNat : ℕ) * 2 ^ (0 : ℤ)) := by
      rw [Nat.shiftLeft_eq, zpow_neg, zpow_natCast, zpow_zero, mul_one, Nat.cast_mul, Nat.cast_pow,
        Nat.cast_pow, Nat.cast_ofNat, Nat.cast_ofNat,
        mul_inv_cancel_right₀ (pow_ne_zero _ two_ne_zero), ← zpow_natCast (10 : ℚ),
        Int.toNat_of_nonneg sign]
    have enough : 2 ^ 53 ≤ (coefficient <<< 53) * 10 ^ exponent.toNat := by
      rw [Nat.shiftLeft_eq, mul_comm coefficient, mul_assoc]
      exact Nat.le_mul_of_pos_right _ (Nat.mul_pos coefficientPos (by positivity))
    rw [value] at near
    rw [if_pos sign]
    exact canonical.mul_eq positive near _ _ enough
  · have value : (coefficient * 10 ^ exponent : ℚ) =
        (coefficient * 2 ^ (0 : ℤ)) / ((10 ^ (-exponent).toNat : ℕ) * 2 ^ (0 : ℤ)) := by
      have amount : exponent = -((-exponent).toNat : ℤ) := by omega
      rw [zpow_zero, mul_one, mul_one]
      push_cast
      rw [← zpow_natCast (10 : ℚ), div_eq_mul_inv, ← zpow_neg, ← amount]
    rw [value] at near
    rw [if_neg sign]
    exact canonical.div_eq positive near _ _

theorem float_ofScientific_eq (sign : number.negative = false) :
    Float.ofScientific coefficient (exponent < 0) exponent.natAbs = number.toFloat positive := by
  have coefficientPos := canonical.coefficient_pos positive near
  rw [Float.ofScientific]
  by_cases fast : coefficient < 2 ^ 53 ∧ exponent.natAbs ≤ 22
  · -- Both the coefficient and the power of ten are doubles.
    have whole := isExactly_natCast coefficientPos fast.1
    have power := isExactly_powerOfTen ⟨exponent.natAbs, Nat.lt_succ_of_le fast.2⟩
    rw [dif_pos fast]
    by_cases negative : exponent < 0
    · have amount : exponent = -(exponent.natAbs : ℤ) := by omega
      have value : (coefficient * 10 ^ exponent : ℚ) = coefficient / 10 ^ exponent.natAbs := by
        rw [div_eq_mul_inv, ← zpow_natCast (10 : ℚ), ← zpow_neg, ← amount]
      rw [value] at near
      simp only [negative, decide_true, if_true]
      exact canonical.div_eq_toFloat positive sign whole power near
    · have amount : exponent = (exponent.natAbs : ℤ) := by omega
      have value : (coefficient * 10 ^ exponent : ℚ) = coefficient * 10 ^ exponent.natAbs := by
        rw [← zpow_natCast (10 : ℚ), ← amount]
      rw [value] at near
      simp only [negative, decide_false, Bool.false_eq_true, if_false]
      exact canonical.mul_eq_toFloat positive sign whole power near
  · have signed : (if decide (exponent < 0) = true then Int.negOfNat exponent.natAbs
        else Int.ofNat exponent.natAbs) = exponent := by
      by_cases negative : exponent < 0
      · rw [if_pos (decide_eq_true negative), Int.negOfNat_eq, Int.ofNat_eq_natCast]
        omega
      · rw [if_neg (by simpa using negative), Int.ofNat_eq_natCast]
        omega
    rw [dif_neg fast]
    simp only [signed]
    rw [Float.Model.ofScientific, canonical.ofScientific_eq positive near, toFloat, sign]
    rfl

/-- A decimal in the interval of a double is read to that double. -/
theorem nearestFloat_eq (sign : number.negative = false) :
    nearestFloat coefficient exponent = number.toFloat positive := by
  have coefficientPos := canonical.coefficient_pos positive near
  obtain ⟨least, greatest⟩ := canonical.size_bounds positive near
  have inRange : ¬ (coefficient = 0 ∨
      ((Nat.toDigits 10 coefficient).length : ℤ) + exponent < -330) := by omega
  have notHuge : ¬ 320 < ((Nat.toDigits 10 coefficient).length : ℤ) + exponent := by omega
  simp only [nearestFloat, if_neg inRange, if_neg notHuge]
  exact canonical.float_ofScientific_eq positive near sign

end Binary.IsCanonical

end MessageBlocks.Number
