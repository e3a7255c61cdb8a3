import MessageBlocks.Number.Shortest
import Mathlib

/-!
# Rounding to doubles

A finite double has a mantissa of at most 53 bits, and of exactly 53 bits unless its exponent is
the least one. Any value between the ends of the interval of a double is rounded to that double,
from a mantissa with enough bits and the bits that say how much is missing from it.
-/

namespace MessageBlocks.Number

open Float.Model Float.Model.UnpackedFloat

/-- The mantissas and exponents that doubles have. -/
structure Binary.IsCanonical (number : Binary) : Prop where
  mantissa_lt : number.mantissa < 2 ^ 53
  full : 2 ^ 52 ≤ number.mantissa ∨ number.exponent = -1074
  least_le : -1074 ≤ number.exponent
  le_greatest : number.exponent ≤ 971

namespace Rounding

/-- The bits of an extended mantissa say where a value lies. -/
def Represents (extended : ExtendedMantissa) (value : ℚ) : Prop :=
  match extended.roundBit, extended.stickyBit with
  | false, false => value = extended.mantissa
  | false, true => extended.mantissa < value ∧ value < extended.mantissa + 1 / 2
  | true, false => value = extended.mantissa + 1 / 2
  | true, true => extended.mantissa + 1 / 2 < value ∧ value < extended.mantissa + 1

theorem represents_exact (mantissa : ℕ) :
    Represents (.ofMantissaAndAccuracy mantissa .exact) mantissa :=
  rfl

theorem Represents.bounds {extended : ExtendedMantissa} {value : ℚ}
    (represents : Represents extended value) :
    extended.mantissa ≤ value ∧ value < extended.mantissa + 1 := by
  obtain ⟨mantissa, roundBit, stickyBit⟩ := extended
  cases roundBit <;> cases stickyBit <;> simp only [Represents] at represents ⊢ <;>
    constructor <;> linarith

theorem Represents.shiftRightOne {extended : ExtendedMantissa} {value : ℚ}
    (represents : Represents extended value) :
    Represents extended.shiftRightOne (value / 2) := by
  obtain ⟨mantissa, roundBit, stickyBit⟩ := extended
  have halves : ((mantissa % 2 : ℕ) : ℚ) + 2 * ((mantissa / 2 : ℕ) : ℚ) = mantissa := by
    exact_mod_cast Nat.mod_add_div mantissa 2
  rcases Nat.mod_two_eq_zero_or_one mantissa with even | odd
  · rw [even, Nat.cast_zero, zero_add] at halves
    cases roundBit <;> cases stickyBit <;>
      simp only [Represents, ExtendedMantissa.shiftRightOne, even, bne_self_eq_false, Bool.or_false,
        Bool.or_true] at represents ⊢ <;>
      (try constructor) <;> linarith
  · rw [odd, Nat.cast_one] at halves
    cases roundBit <;> cases stickyBit <;>
      simp only [Represents, ExtendedMantissa.shiftRightOne, odd, Bool.or_false, Bool.or_true,
        show ((1 : ℕ) != 0) = true from rfl] at represents ⊢ <;>
      (try constructor) <;> linarith

theorem Represents.shiftRight {extended : ExtendedMantissa} {value : ℚ}
    (represents : Represents extended value) (count : ℕ) :
    Represents (extended >>> count) (value / 2 ^ count) := by
  change Represents (count.repeat ExtendedMantissa.shiftRightOne extended) _
  induction count with
  | zero => simpa [Nat.repeat] using represents
  | succ count ih =>
      rw [Nat.repeat, pow_succ, ← div_div]
      exact ih.shiftRightOne

/-- A value between two halves of an integer, without the ends if the integer is odd. -/
structure IsHalfNear (nearest : ℕ) (value : ℚ) : Prop where
  above : nearest - 1 / 2 ≤ value
  below : value ≤ nearest + 1 / 2
  strict : nearest % 2 = 1 → nearest - 1 / 2 < value ∧ value < nearest + 1 / 2

/-- A mantissa rounds to the integer that the value is closest to, or to the even one of two. -/
theorem Represents.roundedMantissa_eq {extended : ExtendedMantissa} {value : ℚ}
    (represents : Represents extended value) {nearest : ℕ} (near : IsHalfNear nearest value) :
    extended.roundedMantissa = nearest := by
  obtain ⟨above, below, strict⟩ := near
  obtain ⟨mantissa, roundBit, stickyBit⟩ := extended
  have between {low : ℕ} (lower : (low : ℚ) < nearest + 1) (upper : (nearest : ℚ) < low + 1) :
      low = nearest := by
    have lowerNat : low < nearest + 1 := by exact_mod_cast lower
    have upperNat : nearest < low + 1 := by exact_mod_cast upper
    omega
  cases roundBit <;> cases stickyBit <;> simp only [Represents] at represents <;>
    simp only [ExtendedMantissa.roundedMantissa, ExtendedMantissa.accuracy,
      Accuracy.roundToNearestEven]
  · exact between (by linarith) (by linarith)
  · exact between (by linarith) (by linarith)
  · -- The value is halfway, so that the nearest integer can only be an even one.
    have even : nearest % 2 = 0 := by
      by_contra odd
      obtain ⟨aboveStrict, belowStrict⟩ := strict (by omega)
      have same : mantissa = nearest := between (by linarith) (by linarith)
      rw [same] at represents
      linarith
    have lower : (mantissa : ℚ) ≤ nearest := by linarith
    have upper : (nearest : ℚ) ≤ mantissa + 1 := by linarith
    have lowerNat : mantissa ≤ nearest := by exact_mod_cast lower
    have upperNat : nearest ≤ mantissa + 1 := by exact_mod_cast upper
    omega
  · exact between (by push_cast; linarith) (by push_cast; linarith)

/-! Shifts to the exponent of a double. -/

theorem two_zpow_pos (exponent : ℤ) : (0 : ℚ) < 2 ^ exponent :=
  zpow_pos two_pos exponent

theorem two_zpow_add (exponent : ℤ) (shift : ℕ) :
    (2 : ℚ) ^ (exponent + shift) = 2 ^ exponent * 2 ^ shift := by
  rw [zpow_add₀ two_ne_zero, zpow_natCast]

theorem exists_shift {exponent target : ℤ} (fine : exponent ≤ target) :
    ∃ shift : ℕ, target = exponent + shift := by
  obtain ⟨shift, reached⟩ := Int.le.dest fine
  exact ⟨shift, reached.symm⟩

/-- A value with 53 bits above an exponent, or with fewer above the least one, has that exponent
as its target. -/
theorem targetExponent_eq {mantissa : ℕ} {exponent target : ℤ} {value : ℚ}
    (low : mantissa * 2 ^ exponent ≤ value) (high : value < (mantissa + 1) * 2 ^ exponent)
    (fine : exponent ≤ target) (least : -1074 ≤ target) (fits : value < 2 ^ 53 * 2 ^ target)
    (full : 2 ^ 52 * 2 ^ target ≤ value ∨ target = -1074) :
    Format.binary64.targetExponent (totalExponent mantissa exponent) = target := by
  obtain ⟨shift, rfl⟩ := exists_shift fine
  have unit := two_zpow_pos exponent
  rw [two_zpow_add, mul_comm (2 ^ exponent), ← mul_assoc, ← pow_add] at fits full
  have upper : mantissa < 2 ^ (53 + shift) := by
    exact_mod_cast lt_of_mul_lt_mul_right (lt_of_le_of_lt low fits) unit.le
  have bits : mantissa.log2 < 53 + shift := by
    by_cases zero : mantissa = 0
    · rw [zero, Nat.log2_zero]
      omega
    · exact (Nat.log2_lt zero).2 upper
  have target : Format.binary64.targetExponent (totalExponent mantissa exponent) =
      max (mantissa.log2 + 1 + exponent - 53) (-1074) := rfl
  rw [target]
  rcases full with enough | isLeast
  · have lower : 2 ^ (52 + shift) < mantissa + 1 := by
      exact_mod_cast lt_of_mul_lt_mul_right (lt_of_le_of_lt enough high) unit.le
    have nonzero : mantissa ≠ 0 := by
      have positive : 0 < 2 ^ (52 + shift) := Nat.two_pow_pos _
      omega
    have moreBits : 52 + shift ≤ mantissa.log2 := (Nat.le_log2 nonzero).2 (by omega)
    omega
  · omega

theorem Represents.shiftToTargetExponent {mantissa : ℕ} {exponent target : ℤ}
    {accuracy : Accuracy} {value : ℚ}
    (represents : Represents (.ofMantissaAndAccuracy mantissa accuracy) (value / 2 ^ exponent))
    (isTarget : Format.binary64.targetExponent (totalExponent mantissa exponent) = target)
    (fine : exponent ≤ target) :
    ∃ extended, shiftToTargetExponent .binary64 mantissa exponent accuracy = (extended, target) ∧
      Represents extended (value / 2 ^ target) := by
  obtain ⟨shift, rfl⟩ := exists_shift fine
  have amount : (exponent + shift - exponent).toNat = shift := by omega
  refine ⟨ExtendedMantissa.ofMantissaAndAccuracy mantissa accuracy >>> shift, ?_, ?_⟩
  · rw [UnpackedFloat.shiftToTargetExponent, isTarget, shiftToExponent, amount]
  · rw [two_zpow_add, ← div_div]
    exact represents.shiftRight shift

theorem mantissa_ofMantissaAndAccuracy (mantissa : ℕ) (accuracy : Accuracy) :
    (ExtendedMantissa.ofMantissaAndAccuracy mantissa accuracy).mantissa = mantissa := by
  rcases accuracy with _ | _ | _ | _ <;> rfl

theorem Represents.scaled_bounds {mantissa : ℕ} {exponent : ℤ} {accuracy : Accuracy} {value : ℚ}
    (represents : Represents (.ofMantissaAndAccuracy mantissa accuracy) (value / 2 ^ exponent)) :
    mantissa * 2 ^ exponent ≤ value ∧ value < (mantissa + 1) * 2 ^ exponent := by
  have unit := two_zpow_pos exponent
  obtain ⟨low, high⟩ := represents.bounds
  rw [mantissa_ofMantissaAndAccuracy] at low high
  exact ⟨(le_div_iff₀ unit).1 low, (div_lt_iff₀ unit).1 high⟩

end Rounding

open Rounding

namespace Binary

/-- The magnitude of a number. -/
def magnitude (number : Binary) : ℚ :=
  number.mantissa * 2 ^ number.exponent

/-- How far below a double the values that round to it reach, in units of its exponent. -/
def gapBelow (number : Binary) : ℚ :=
  if number.mantissa = powerOfTwo 52 ∧ -1074 < number.exponent then 1 / 4 else 1 / 2

/-- The values that round to a positive double. The ends of their interval belong to it if the
mantissa is even. -/
structure IsNearestTo (number : Binary) (value : ℚ) : Prop where
  above : (number.mantissa - number.gapBelow) * 2 ^ number.exponent ≤ value
  below : value ≤ (number.mantissa + 1 / 2) * 2 ^ number.exponent
  strict : number.mantissa % 2 = 1 →
    (number.mantissa - number.gapBelow) * 2 ^ number.exponent < value ∧
      value < (number.mantissa + 1 / 2) * 2 ^ number.exponent

variable {number : Binary}

theorem gapBelow_le (number : Binary) : number.gapBelow ≤ 1 / 2 := by
  rw [gapBelow]
  split <;> norm_num

theorem quarter_le_gapBelow (number : Binary) : 1 / 4 ≤ number.gapBelow := by
  rw [gapBelow]
  split <;> norm_num

/-- A double is itself one of the values that round to it. -/
theorem isNearestTo_magnitude (number : Binary) : number.IsNearestTo number.magnitude := by
  have unit := two_zpow_pos number.exponent
  have gap := number.quarter_le_gapBelow
  have above : (number.mantissa - number.gapBelow) * 2 ^ number.exponent < number.magnitude :=
    mul_lt_mul_of_pos_right (by linarith) unit
  have below : number.magnitude < (number.mantissa + 1 / 2) * 2 ^ number.exponent :=
    mul_lt_mul_of_pos_right (by linarith) unit
  exact ⟨above.le, below.le, fun _ => ⟨above, below⟩⟩

namespace IsCanonical

variable (canonical : number.IsCanonical)

include canonical

/-- A mantissa with the magnitude of a double is shifted to the mantissa of that double. -/
theorem shiftToTargetExponent_exact {mantissa : ℕ} {exponent : ℤ}
    (same : mantissa * 2 ^ exponent = number.magnitude) (fine : exponent ≤ number.exponent) :
    ∃ extended, shiftToTargetExponent .binary64 mantissa exponent .exact =
      (extended, number.exponent) ∧ extended.mantissa = number.mantissa := by
  have unit := two_zpow_pos number.exponent
  have exact : Represents (.ofMantissaAndAccuracy mantissa .exact)
      (number.magnitude / 2 ^ exponent) := by
    rw [← same, mul_div_cancel_right₀ _ (two_zpow_pos exponent).ne']
    exact represents_exact mantissa
  have fits : number.magnitude < 2 ^ 53 * 2 ^ number.exponent :=
    mul_lt_mul_of_pos_right (by exact_mod_cast canonical.mantissa_lt) unit
  have full : 2 ^ 52 * 2 ^ number.exponent ≤ number.magnitude ∨ number.exponent = -1074 :=
    canonical.full.imp_left fun enough =>
      mul_le_mul_of_nonneg_right (by exact_mod_cast enough) unit.le
  obtain ⟨low, high⟩ := exact.scaled_bounds
  have target := targetExponent_eq low high fine canonical.least_le fits full
  obtain ⟨extended, shifted, represents⟩ := exact.shiftToTargetExponent target fine
  refine ⟨extended, shifted, ?_⟩
  rw [magnitude, mul_div_cancel_right₀ _ unit.ne'] at represents
  obtain ⟨lower, upper⟩ := represents.bounds
  have lowerNat : extended.mantissa ≤ number.mantissa := by exact_mod_cast lower
  have upperNat : number.mantissa < extended.mantissa + 1 := by exact_mod_cast upper
  omega

/-- A value that rounds, at some exponent, to an integer with the magnitude of a double is rounded
to that double. -/
theorem roundWithAccuracy_of_isHalfNear (positive : 0 < number.mantissa) {value : ℚ}
    {mantissa nearest : ℕ} {exponent target : ℤ} {accuracy : Accuracy}
    (represents : Represents (.ofMantissaAndAccuracy mantissa accuracy) (value / 2 ^ exponent))
    (fine : exponent ≤ target) (least : -1074 ≤ target) (fits : value < 2 ^ 53 * 2 ^ target)
    (full : 2 ^ 52 * 2 ^ target ≤ value ∨ target = -1074)
    (near : IsHalfNear nearest (value / 2 ^ target))
    (same : nearest * 2 ^ target = number.magnitude) (below : target ≤ number.exponent)
    (sign : Sign) :
    roundWithAccuracy .binary64 sign mantissa exponent accuracy =
      .finite sign number.mantissa number.exponent positive := by
  obtain ⟨low, high⟩ := represents.scaled_bounds
  obtain ⟨extended, shifted, shiftedRepresents⟩ :=
    represents.shiftToTargetExponent (targetExponent_eq low high fine least fits full) fine
  have rounded := shiftedRepresents.roundedMantissa_eq near
  obtain ⟨final, carried, finalMantissa⟩ := canonical.shiftToTargetExponent_exact same below
  have nonzero : ¬ final.mantissa = 0 := by omega
  simp only [roundWithAccuracy, shifted, rounded, carried, finalMantissa, positive.ne',
    dite_false]

/-- A value that rounds to a double has no more bits than the mantissa of the double. -/
theorem value_lt {value : ℚ} (near : number.IsNearestTo value) :
    value < 2 ^ 53 * 2 ^ number.exponent := by
  have unit := two_zpow_pos number.exponent
  have mantissa : (number.mantissa : ℚ) + 1 ≤ 2 ^ 53 := by
    exact_mod_cast canonical.mantissa_lt
  calc value ≤ (number.mantissa + 1 / 2) * 2 ^ number.exponent := near.below
    _ < 2 ^ 53 * 2 ^ number.exponent := mul_lt_mul_of_pos_right (by linarith) unit

section Interval

variable {value : ℚ} (near : number.IsNearestTo value)

include near

/-- A value that has fewer bits at the exponent of its nearest double lies below a power of two. -/
theorem mantissa_eq_of_lt (small : value < 2 ^ 52 * 2 ^ number.exponent)
    (normal : -1074 < number.exponent) : number.mantissa = 2 ^ 52 := by
  have unit := two_zpow_pos number.exponent
  have gap := number.gapBelow_le
  have lower : number.mantissa - number.gapBelow ≤ value / 2 ^ number.exponent :=
    (le_div_iff₀ unit).2 near.above
  have upper : value / 2 ^ number.exponent < 2 ^ 52 := (div_lt_iff₀ unit).2 small
  have atLeast : 2 ^ 52 ≤ number.mantissa := canonical.full.resolve_right (by omega)
  have atMost : (number.mantissa : ℚ) < 2 ^ 52 + 1 := by linarith
  have atMostNat : number.mantissa < 2 ^ 52 + 1 := by exact_mod_cast atMost
  omega

variable (positive : 0 < number.mantissa) {mantissa : ℕ} {exponent : ℤ} {accuracy : Accuracy}
  (represents : Represents (.ofMantissaAndAccuracy mantissa accuracy) (value / 2 ^ exponent))

include represents

/-- A value below a power of two has its 53 bits one place further down than the power, and is
rounded to it from there. -/
theorem roundWithAccuracy_of_lt (small : value < 2 ^ 52 * 2 ^ number.exponent)
    (normal : -1074 < number.exponent) (fine : exponent < number.exponent) (sign : Sign) :
    roundWithAccuracy .binary64 sign mantissa exponent accuracy =
      .finite sign number.mantissa number.exponent positive := by
  have mantissaIs := canonical.mantissa_eq_of_lt near small normal
  obtain ⟨lowerExponent, next⟩ : ∃ lowerExponent, number.exponent = lowerExponent + 1 :=
    ⟨number.exponent - 1, by omega⟩
  have lowerUnit := two_zpow_pos lowerExponent
  have twice : (2 : ℚ) ^ number.exponent = 2 ^ lowerExponent * 2 := by
    rw [next, zpow_add_one₀ two_ne_zero]
  have above : (2 ^ 53 - 1 / 2) * 2 ^ lowerExponent ≤ value := by
    have quarter : number.gapBelow = 1 / 4 := if_pos ⟨mantissaIs, normal⟩
    have reached := near.above
    rw [quarter, mantissaIs, twice] at reached
    push_cast at reached
    linarith
  have fits : value < 2 ^ 53 * 2 ^ lowerExponent := by
    rw [twice] at small
    linarith
  have halfNear : IsHalfNear (2 ^ 53) (value / 2 ^ lowerExponent) := by
    refine ⟨?_, ?_, fun odd => absurd odd (by decide)⟩
    · push_cast
      exact (le_div_iff₀ lowerUnit).2 above
    · have below : value / 2 ^ lowerExponent < 2 ^ 53 := (div_lt_iff₀ lowerUnit).2 fits
      push_cast
      linarith
  have same : ((2 ^ 53 : ℕ) : ℚ) * 2 ^ lowerExponent = number.magnitude := by
    rw [magnitude, mantissaIs, twice]
    push_cast
    ring
  exact canonical.roundWithAccuracy_of_isHalfNear positive represents (by omega) (by omega) fits
    (.inl (by linarith)) halfNear same (by omega) sign

/-- Whatever lies in the interval of a double is rounded to that double, if the mantissa before
has enough bits. -/
theorem roundWithAccuracy_eq (fine : exponent ≤ number.exponent)
    (finer : value < 2 ^ 52 * 2 ^ number.exponent → -1074 < number.exponent →
      exponent < number.exponent) (sign : Sign) :
    roundWithAccuracy .binary64 sign mantissa exponent accuracy =
      .finite sign number.mantissa number.exponent positive := by
  by_cases isBelow : value < 2 ^ 52 * 2 ^ number.exponent ∧ -1074 < number.exponent
  · obtain ⟨small, normal⟩ := isBelow
    exact canonical.roundWithAccuracy_of_lt near positive represents small normal
      (finer small normal) sign
  · have unit := two_zpow_pos number.exponent
    have gap := number.gapBelow_le
    have full : 2 ^ 52 * 2 ^ number.exponent ≤ value ∨ number.exponent = -1074 := by
      by_cases small : value < 2 ^ 52 * 2 ^ number.exponent
      · have least := canonical.least_le
        have notNormal : ¬ -1074 < number.exponent := fun normal => isBelow ⟨small, normal⟩
        exact .inr (by omega)
      · exact .inl (not_lt.1 small)
    have lower : number.mantissa - number.gapBelow ≤ value / 2 ^ number.exponent :=
      (le_div_iff₀ unit).2 near.above
    have halfNear : IsHalfNear number.mantissa (value / 2 ^ number.exponent) := by
      refine ⟨by linarith, (div_le_iff₀ unit).2 near.below, fun odd => ?_⟩
      obtain ⟨above, below⟩ := near.strict odd
      have strictLower : number.mantissa - number.gapBelow < value / 2 ^ number.exponent :=
        (lt_div_iff₀ unit).2 above
      exact ⟨by linarith, (div_lt_iff₀ unit).2 below⟩
    exact canonical.roundWithAccuracy_of_isHalfNear positive represents fine canonical.least_le
      (canonical.value_lt near) full halfNear rfl le_rfl sign

end Interval

end IsCanonical

end Binary

end MessageBlocks.Number
