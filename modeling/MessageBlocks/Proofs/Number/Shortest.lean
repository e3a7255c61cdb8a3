import MessageBlocks.Proofs.Number.Nearest

/-!
# The shortest decimal lies in the interval

Whether a decimal is between the ends of the interval of a double is decided with whole numbers.
The search for a decimal ends on a grid that has a point in the interval, at the latest on the grid
that is finer than the smaller half of the interval.
-/

namespace MessageBlocks.Number

open Rounding

theorem zpow_eq_div (base : ℚ) (exponent : ℤ) :
    base ^ exponent = base ^ exponent.toNat / base ^ (-exponent).toNat := by
  rcases le_total 0 exponent with up | down
  · obtain ⟨power, rfl⟩ := Int.eq_ofNat_of_zero_le up
    simp
  · obtain ⟨power, isPower⟩ := Int.eq_ofNat_of_zero_le (neg_nonneg.2 down)
    obtain rfl : exponent = -(power : ℤ) := by omega
    simp

namespace Interval

variable {number : Binary}

/-- The fraction whose multiples the ends of an interval are, as a power of two. -/
theorem fraction_ofBinary (number : Binary) :
    ((ofBinary number).numerator : ℚ) / (ofBinary number).denominator =
      2 ^ number.exponent / 4 := by
  have fraction : ((ofBinary number).numerator : ℚ) / (ofBinary number).denominator =
      2 ^ (number.exponent - 2) := by
    rw [zpow_eq_div]
    exact congrArg₂ (· / ·) (Nat.cast_pow 2 _) (Nat.cast_pow 2 _)
  rw [fraction, zpow_sub₀ two_ne_zero]
  norm_num

theorem value_ofBinary (number : Binary) :
    ((ofBinary number).value * (ofBinary number).numerator : ℚ) / (ofBinary number).denominator =
      number.magnitude := by
  rw [mul_div_assoc, fraction_ofBinary, Binary.magnitude]
  have value : ((ofBinary number).value : ℚ) = 4 * number.mantissa := Nat.cast_mul 4 _
  rw [value]
  ring

theorem low_ofBinary (positive : 0 < number.mantissa) :
    ((ofBinary number).low : ℚ) = 4 * (number.mantissa - number.gapBelow) := by
  simp only [ofBinary, Binary.gapBelow]
  split
  · rw [Nat.cast_sub (by omega)]
    push_cast
    ring
  · rw [Nat.cast_sub (by omega)]
    push_cast
    ring

theorem high_ofBinary (number : Binary) :
    ((ofBinary number).high : ℚ) = 4 * (number.mantissa + 1 / 2) := by
  simp only [ofBinary]
  push_cast
  ring

theorem denominator_pos (number : Binary) : 0 < (ofBinary number).denominator :=
  Nat.two_pow_pos _

/-- A common multiple of the fractions in which a point of a grid is compared with an end. -/
def scale (interval : Interval) (exponent : ℤ) : ℚ :=
  interval.denominator * powerOfTen (-exponent).toNat

theorem scale_pos (number : Binary) (exponent : ℤ) : 0 < (ofBinary number).scale exponent := by
  have denominator : (0 : ℚ) < (ofBinary number).denominator := by
    exact_mod_cast denominator_pos number
  have power : (0 : ℚ) < powerOfTen (-exponent).toNat := by
    exact_mod_cast Nat.pow_pos (by norm_num : 0 < 10)
  exact mul_pos denominator power

theorem point_eq (number : Binary) (count : ℕ) (exponent : ℤ) :
    ((count * powerOfTen exponent.toNat * (ofBinary number).denominator : ℕ) : ℚ) =
      count * 10 ^ exponent * (ofBinary number).scale exponent := by
  have power : (10 : ℚ) ^ (-exponent).toNat ≠ 0 := by positivity
  rw [scale, zpow_eq_div]
  simp only [powerOfTen, Nat.pow_eq]
  push_cast
  field_simp

theorem end_eq (number : Binary) (bound : ℕ) (exponent : ℤ) :
    ((bound * ((ofBinary number).numerator * powerOfTen (-exponent).toNat) : ℕ) : ℚ) =
      bound * (2 ^ number.exponent / 4) * (ofBinary number).scale exponent := by
  have denominator : ((ofBinary number).denominator : ℚ) ≠ 0 := by
    exact_mod_cast (denominator_pos number).ne'
  rw [scale, ← fraction_ofBinary]
  push_cast
  field_simp

/-- A point of a grid is in the interval exactly if it rounds to the double. -/
theorem holds_iff (positive : 0 < number.mantissa) (count : ℕ) (exponent : ℤ) :
    (ofBinary number).holds count exponent = true ↔
      number.IsNearestTo (count * 10 ^ exponent) := by
  have unit := scale_pos number exponent
  have low : ((ofBinary number).low : ℚ) * (2 ^ number.exponent / 4) =
      (number.mantissa - number.gapBelow) * 2 ^ number.exponent := by
    rw [low_ofBinary positive]
    ring
  have high : ((ofBinary number).high : ℚ) * (2 ^ number.exponent / 4) =
      (number.mantissa + 1 / 2) * 2 ^ number.exponent := by
    rw [high_ofBinary]
    ring
  have closed : (ofBinary number).closed = decide (number.mantissa % 2 = 0) := rfl
  simp only [holds, closed, decide_eq_true_eq]
  by_cases even : number.mantissa % 2 = 0
  · rw [if_pos even, Bool.and_eq_true, decide_eq_true_eq, decide_eq_true_eq, ← @Nat.cast_le ℚ,
      ← @Nat.cast_le ℚ, end_eq, end_eq, point_eq, low, high, mul_le_mul_iff_left₀ unit,
      mul_le_mul_iff_left₀ unit]
    constructor
    · rintro ⟨above, below⟩
      exact ⟨above, below, fun odd => absurd even (by omega)⟩
    · intro near
      exact ⟨near.above, near.below⟩
  · rw [if_neg even, Bool.and_eq_true, decide_eq_true_eq, decide_eq_true_eq, ← @Nat.cast_lt ℚ,
      ← @Nat.cast_lt ℚ, end_eq, end_eq, point_eq, low, high, mul_lt_mul_iff_left₀ unit,
      mul_lt_mul_iff_left₀ unit]
    constructor
    · rintro ⟨above, below⟩
      exact ⟨above.le, below.le, fun _ => ⟨above, below⟩⟩
    · intro near
      exact near.strict (by omega)

/-! The search. -/

theorem holds_of_onGrid?_eq_some {interval : Interval} {exponent : ℤ} {decimal : Decimal}
    (found : interval.onGrid? exponent = some decimal) :
    interval.holds decimal.coefficient decimal.exponent = true := by
  simp only [onGrid?] at found
  split at found
  · next lower =>
      obtain rfl := Option.some.inj found
      exact (Bool.and_eq_true _ _ ▸ lower).1
  · split at found
    · next upper =>
        obtain rfl := Option.some.inj found
        exact upper
    · cases found

/-- The greatest point of a grid that is not above the value. -/
def pointBelow (interval : Interval) (exponent : ℤ) : ℕ :=
  interval.value * interval.numerator * powerOfTen (-exponent).toNat /
    (interval.denominator * powerOfTen exponent.toNat)

/-- A grid whose greatest point not above the value is in the interval has a nearest point. -/
theorem exists_onGrid?_eq_some {interval : Interval} {exponent : ℤ}
    (lower : interval.holds (interval.pointBelow exponent) exponent = true) :
    ∃ decimal, interval.onGrid? exponent = some decimal := by
  rw [pointBelow] at lower
  simp only [onGrid?, lower, Bool.true_and]
  split
  · exact ⟨_, rfl⟩
  · next notNearer =>
      split
      · exact ⟨_, rfl⟩
      · next notUpper =>
          simp [notUpper] at notNearer

/-- The search finds a point of the interval if one of the grids it tries has one. -/
theorem holds_search {interval : Interval} {steps : ℕ} {exponent : ℤ} {step : ℕ}
    (inTime : step < steps)
    (found : ∃ decimal, interval.onGrid? (exponent - step) = some decimal) :
    interval.holds (interval.search steps exponent).coefficient
      (interval.search steps exponent).exponent = true := by
  induction steps generalizing exponent step with
  | zero => omega
  | succ steps ih =>
      rw [search]
      cases first : interval.onGrid? exponent with
      | some decimal => exact holds_of_onGrid?_eq_some first
      | none =>
          obtain ⟨decimal, later⟩ := found
          have notFirst : step ≠ 0 := by
            rintro rfl
            rw [Nat.cast_zero, sub_zero, first] at later
            cases later
          obtain ⟨before, rfl⟩ := Nat.exists_eq_succ_of_ne_zero notFirst
          have next : exponent - (before.succ : ℤ) = exponent - 1 - before := by
            push_cast
            ring
          rw [next] at later
          exact ih (Nat.lt_of_succ_lt_succ inTime) ⟨decimal, later⟩

theorem floor_div_bounds (dividend divisor : ℕ) :
    ((dividend / divisor : ℕ) : ℚ) ≤ (dividend : ℚ) / divisor ∧
      (dividend : ℚ) / divisor < ((dividend / divisor : ℕ) : ℚ) + 1 := by
  refine ⟨Nat.cast_div_le, ?_⟩
  have next := Nat.lt_floor_add_one ((dividend : ℚ) / divisor)
  rwa [Nat.floor_div_eq_div] at next

theorem pointBelow_bounds (number : Binary) (exponent : ℤ) :
    (ofBinary number).pointBelow exponent * 10 ^ exponent ≤ number.magnitude ∧
      number.magnitude < ((ofBinary number).pointBelow exponent + 1) * 10 ^ exponent := by
  have unit := ten_zpow_pos exponent
  have denominator : ((ofBinary number).denominator : ℚ) ≠ 0 := by
    exact_mod_cast (denominator_pos number).ne'
  have power : (10 : ℚ) ^ exponent.toNat ≠ 0 := by positivity
  have quotient : (((ofBinary number).value * (ofBinary number).numerator *
      powerOfTen (-exponent).toNat : ℕ) : ℚ) /
        ((ofBinary number).denominator * powerOfTen exponent.toNat : ℕ) =
      number.magnitude / 10 ^ exponent := by
    rw [← value_ofBinary, zpow_eq_div]
    simp only [powerOfTen, Nat.pow_eq]
    push_cast
    field_simp
  obtain ⟨low, high⟩ := floor_div_bounds
    ((ofBinary number).value * (ofBinary number).numerator * powerOfTen (-exponent).toNat)
    ((ofBinary number).denominator * powerOfTen exponent.toNat)
  rw [quotient] at low high
  exact ⟨(le_div_iff₀ unit).1 low, (div_lt_iff₀ unit).1 high⟩

/-- The value of a double is not below the power of ten before the first grid. -/
theorem ten_zpow_le_magnitude (positive : 0 < number.mantissa) :
    (10 : ℚ) ^ ((ofBinary number).ceilingExponent - 1) ≤ number.magnitude := by
  have denominatorPos := denominator_pos number
  have denominatorRat : (0 : ℚ) < (ofBinary number).denominator := by
    exact_mod_cast denominatorPos
  have dividendPos : 0 < (ofBinary number).value * (ofBinary number).numerator :=
    Nat.mul_pos (Nat.mul_pos (by norm_num) positive) (Nat.two_pow_pos _)
  rw [← value_ofBinary, ← Nat.cast_mul, ceilingExponent]
  generalize (ofBinary number).value * (ofBinary number).numerator = dividend at dividendPos ⊢
  generalize (ofBinary number).denominator = divisor at denominatorPos denominatorRat ⊢
  by_cases large : divisor ≤ dividend
  · have quotientPos : 0 < dividend / divisor := Nat.div_pos large denominatorPos
    have some : 0 < (Nat.toDigits 10 (dividend / divisor)).length := Nat.length_toDigits_pos
    have power : ((Nat.toDigits 10 (dividend / divisor)).length : ℤ) - 1 =
        ((Nat.toDigits 10 (dividend / divisor)).length - 1 : ℕ) := by omega
    have atMost : ((10 ^ ((Nat.toDigits 10 (dividend / divisor)).length - 1) : ℕ) : ℚ) ≤
        (dividend / divisor : ℕ) := by
      exact_mod_cast (digits_bounds quotientPos).1
    simp only [if_pos large]
    rw [power, zpow_natCast]
    exact (by exact_mod_cast atMost : (10 : ℚ) ^ _ ≤ (dividend / divisor : ℕ)).trans
      (floor_div_bounds dividend divisor).1
  · have quotientPos : 0 < divisor / dividend := Nat.div_pos (by omega) dividendPos
    have less : divisor < 10 ^ (Nat.toDigits 10 (divisor / dividend)).length * dividend :=
      (Nat.div_lt_iff_lt_mul dividendPos).1 (digits_bounds quotientPos).2
    have lessRat : (divisor : ℚ) <
        10 ^ (Nat.toDigits 10 (divisor / dividend)).length * dividend := by
      exact_mod_cast less
    have power : 1 - ((Nat.toDigits 10 (divisor / dividend)).length : ℤ) - 1 =
        -((Nat.toDigits 10 (divisor / dividend)).length : ℤ) := by ring
    simp only [if_neg large]
    rw [power, zpow_neg, zpow_natCast, le_div_iff₀ denominatorRat, inv_mul_le_iff₀ (by positivity)]
    exact lessRat.le

end Interval

/-- The shortest decimal of a positive double rounds to it. -/
theorem Binary.IsCanonical.isNearestTo_shortest {number : Binary} (canonical : number.IsCanonical)
    (positive : 0 < number.mantissa) :
    number.IsNearestTo ((shortest number).coefficient * 10 ^ (shortest number).exponent) := by
  have unit := two_zpow_pos number.exponent
  have gap := number.quarter_le_gapBelow
  have first := Interval.ten_zpow_le_magnitude positive
  obtain ⟨grid, gridIs⟩ : ∃ grid, (Interval.ofBinary number).ceilingExponent - (18 : ℕ) = grid :=
    ⟨_, rfl⟩
  -- The nineteenth grid is finer than the smaller half of the interval.
  have fine : (10 : ℚ) ^ grid < number.gapBelow * 2 ^ number.exponent := by
    have power : (Interval.ofBinary number).ceilingExponent - 1 = grid + (17 : ℕ) := by omega
    rw [power, zpow_add₀ (by norm_num), zpow_natCast] at first
    have small := first.trans_lt (canonical.value_lt number.isNearestTo_magnitude)
    have quarter : 1 / 4 * (2 : ℚ) ^ number.exponent ≤ number.gapBelow * 2 ^ number.exponent :=
      mul_le_mul_of_nonneg_right gap unit.le
    linarith
  have near : number.IsNearestTo ((Interval.ofBinary number).pointBelow grid * 10 ^ grid) := by
    obtain ⟨low, high⟩ := Interval.pointBelow_bounds number grid
    have above : (number.mantissa - number.gapBelow) * 2 ^ number.exponent <
        (Interval.ofBinary number).pointBelow grid * 10 ^ grid := by
      rw [magnitude] at high
      linarith
    have below : ((Interval.ofBinary number).pointBelow grid : ℚ) * 10 ^ grid <
        (number.mantissa + 1 / 2) * 2 ^ number.exponent :=
      low.trans_lt (mul_lt_mul_of_pos_right (by linarith) unit)
    exact ⟨above.le, below.le, fun _ => ⟨above, below⟩⟩
  rw [shortest, ← Interval.holds_iff positive]
  rw [← Interval.holds_iff positive, ← gridIs] at near
  exact Interval.holds_search (by norm_num) (Interval.exists_onGrid?_eq_some near)

end MessageBlocks.Number
