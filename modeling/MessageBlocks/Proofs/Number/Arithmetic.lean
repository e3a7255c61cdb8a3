import MessageBlocks.Proofs.Number.Packing

/-!
# Products and quotients of doubles

A product or quotient of two positive numbers that lies in the interval of a double is that
double. Whole numbers of at most 53 bits and the powers of ten up to the twenty-second are doubles
themselves.
-/

namespace MessageBlocks.Number

open Float.Model Float.Model.UnpackedFloat Rounding

/-- The remainder of a division says where the quotient lies between two mantissas. -/
theorem represents_div (dividend : ℕ) {divisor : ℕ} (positive : 0 < divisor) :
    Represents (.ofMantissaAndAccuracy (dividend / divisor)
      (accuracyOfFraction (dividend % divisor) divisor)) ((dividend : ℚ) / divisor) := by
  have divisorPos : (0 : ℚ) < divisor := by exact_mod_cast positive
  have whole : (dividend : ℚ) / divisor =
      (dividend / divisor : ℕ) + ((dividend % divisor : ℕ) : ℚ) / divisor := by
    have parts : (divisor : ℚ) * (dividend / divisor : ℕ) + (dividend % divisor : ℕ) =
        dividend := by
      exact_mod_cast Nat.div_add_mod dividend divisor
    field_simp
    linarith
  have rest : (dividend % divisor : ℕ) < divisor := Nat.mod_lt _ positive
  generalize dividend / divisor = quotient at whole ⊢
  generalize dividend % divisor = remainder at whole rest ⊢
  rw [whole, accuracyOfFraction]
  by_cases zero : remainder = 0
  · rw [if_pos zero, zero, Nat.cast_zero, zero_div, add_zero]
    exact represents_exact quotient
  · have some : 0 < remainder := by omega
    have fraction : (0 : ℚ) < remainder / divisor :=
      div_pos (by exact_mod_cast some) divisorPos
    have proper : (remainder : ℚ) / divisor < 1 :=
      (div_lt_one divisorPos).2 (by exact_mod_cast rest)
    rw [if_neg zero]
    rcases lt_trichotomy (2 * remainder) divisor with less | same | more
    · have below : (remainder : ℚ) / divisor < 1 / 2 := by
        rw [div_lt_div_iff₀ divisorPos two_pos, mul_comm]
        exact_mod_cast less.trans_eq (one_mul divisor).symm
      rw [Nat.compare_eq_lt.2 less]
      constructor <;> rw [mantissa_ofMantissaAndAccuracy] <;> linarith
    · have half : (remainder : ℚ) / divisor = 1 / 2 := by
        rw [div_eq_div_iff divisorPos.ne' two_ne_zero, mul_comm]
        exact_mod_cast same.trans (one_mul divisor).symm
      rw [Nat.compare_eq_eq.2 same, half]
      rfl
    · have above : 1 / 2 < (remainder : ℚ) / divisor := by
        rw [div_lt_div_iff₀ two_pos divisorPos, mul_comm (remainder : ℚ)]
        exact_mod_cast (one_mul divisor).trans_lt more
      rw [Nat.compare_eq_gt.2 more]
      constructor <;> rw [mantissa_ofMantissaAndAccuracy] <;> linarith

/-- The position of the most significant digit bounds a number from both sides. -/
theorem totalExponent_bounds {mantissa : ℕ} (positive : 0 < mantissa) (exponent : ℤ) :
    (2 : ℚ) ^ (totalExponent mantissa exponent - 1) ≤ mantissa * 2 ^ exponent ∧
      mantissa * 2 ^ exponent < (2 : ℚ) ^ totalExponent mantissa exponent := by
  have unit := two_zpow_pos exponent
  have low : ((2 ^ mantissa.log2 : ℕ) : ℚ) ≤ mantissa := by
    exact_mod_cast Nat.log2_self_le positive.ne'
  have high : (mantissa : ℚ) < (2 ^ (mantissa.log2 + 1) : ℕ) := by
    exact_mod_cast Nat.lt_log2_self
  have before : totalExponent mantissa exponent - 1 = exponent + mantissa.log2 := by
    rw [totalExponent]
    ring
  have after : totalExponent mantissa exponent = exponent + (mantissa.log2 + 1 : ℕ) := by
    rw [totalExponent]
    push_cast
    ring
  push_cast at low high
  rw [before, after, two_zpow_add, two_zpow_add, mul_comm (mantissa : ℚ)]
  exact ⟨mul_le_mul_of_nonneg_left low unit.le, mul_lt_mul_of_pos_left high unit⟩

section Quotient

variable {first second : ℕ} (firstExponent secondExponent : ℤ)

/-- A quotient has its most significant digit at most one place below the difference of the two
places. -/
theorem two_zpow_lt_quotient (firstPos : 0 < first) (secondPos : 0 < second) :
    (2 : ℚ) ^ (totalExponent first firstExponent - totalExponent second secondExponent - 1) <
      (first * 2 ^ firstExponent) / (second * 2 ^ secondExponent) := by
  have secondRat : (0 : ℚ) < second := by exact_mod_cast secondPos
  have low := (totalExponent_bounds firstPos firstExponent).1
  have high := (totalExponent_bounds secondPos secondExponent).2
  rw [lt_div_iff₀ (mul_pos secondRat (two_zpow_pos _))]
  calc (2 : ℚ) ^ (totalExponent first firstExponent - totalExponent second secondExponent - 1) *
        (second * 2 ^ secondExponent)
      < 2 ^ (totalExponent first firstExponent - totalExponent second secondExponent - 1) *
        2 ^ totalExponent second secondExponent := mul_lt_mul_of_pos_left high (two_zpow_pos _)
    _ = 2 ^ (totalExponent first firstExponent - 1) := by
        rw [← zpow_add₀ two_ne_zero]
        ring_nf
    _ ≤ first * 2 ^ firstExponent := low

/-- A quotient of two mantissas is computed at any exponent that the first can be shifted to. -/
theorem represents_quotient (secondPos : 0 < second) {target : ℤ} {shift : ℕ}
    (reached : firstExponent - secondExponent = target + shift) :
    Represents (.ofMantissaAndAccuracy (first <<< shift / second)
        (accuracyOfFraction (first <<< shift % second) second))
      ((first * 2 ^ firstExponent) / (second * 2 ^ secondExponent) / 2 ^ target) := by
  have quotient : (first * 2 ^ firstExponent : ℚ) / (second * 2 ^ secondExponent) / 2 ^ target =
      ((first <<< shift : ℕ) : ℚ) / second := by
    have split : firstExponent = secondExponent + target + shift := by omega
    have secondRat : (0 : ℚ) < second := by exact_mod_cast secondPos
    have secondUnit := two_zpow_pos secondExponent
    have targetUnit := two_zpow_pos target
    rw [split, two_zpow_add, zpow_add₀ two_ne_zero, Nat.shiftLeft_eq]
    push_cast
    field_simp
  rw [quotient]
  exact represents_div _ secondPos

end Quotient

namespace Binary.IsCanonical

variable {number : Binary} (canonical : number.IsCanonical)

include canonical

theorem mul_eq (positive : 0 < number.mantissa) {first second : ℕ}
    {firstExponent secondExponent : ℤ}
    (near : number.IsNearestTo ((first * 2 ^ firstExponent) * (second * 2 ^ secondExponent)))
    (firstPos : 0 < first) (secondPos : 0 < second) (enough : 2 ^ 53 ≤ first * second) :
    UnpackedFloat.mul .binary64 (.finite .positive first firstExponent firstPos)
        (.finite .positive second secondExponent secondPos) =
      .finite .positive number.mantissa number.exponent positive := by
  have value : (first * 2 ^ firstExponent : ℚ) * (second * 2 ^ secondExponent) =
      (first * second : ℕ) * 2 ^ (firstExponent + secondExponent) := by
    rw [zpow_add₀ two_ne_zero]
    push_cast
    ring
  rw [value] at near
  have exact : Represents (.ofMantissaAndAccuracy (first * second) .exact)
      ((first * second : ℕ) * 2 ^ (firstExponent + secondExponent) /
        2 ^ (firstExponent + secondExponent)) := by
    rw [mul_div_cancel_right₀ _ (two_zpow_pos _).ne']
    exact represents_exact _
  have finer : firstExponent + secondExponent < number.exponent := by
    have small := canonical.value_lt near
    have large : (2 ^ 53 : ℚ) ≤ (first * second : ℕ) := by exact_mod_cast enough
    have between : (2 ^ 53 : ℚ) * 2 ^ (firstExponent + secondExponent) <
        2 ^ 53 * 2 ^ number.exponent :=
      lt_of_le_of_lt (mul_le_mul_of_nonneg_right large (two_zpow_pos _).le) small
    exact (zpow_lt_zpow_iff_right₀ one_lt_two).1 (lt_of_mul_lt_mul_left between (by positivity))
  exact canonical.roundWithAccuracy_eq near positive exact finer.le (fun _ _ => finer) .positive

theorem div_eq (positive : 0 < number.mantissa) {first second : ℕ}
    {firstExponent secondExponent : ℤ}
    (near : number.IsNearestTo ((first * 2 ^ firstExponent) / (second * 2 ^ secondExponent)))
    (firstPos : 0 < first) (secondPos : 0 < second) :
    UnpackedFloat.div .binary64 (.finite .positive first firstExponent firstPos)
        (.finite .positive second secondExponent secondPos) =
      .finite .positive number.mantissa number.exponent positive := by
  have digit := two_zpow_lt_quotient firstExponent secondExponent firstPos secondPos
  obtain ⟨target, chosen⟩ : ∃ target, target = min (firstExponent - secondExponent)
      (Format.binary64.targetExponent
        (totalExponent first firstExponent - totalExponent second secondExponent)) := ⟨_, rfl⟩
  obtain ⟨shift, reached⟩ : ∃ shift : ℕ, firstExponent - secondExponent = target + shift :=
    exists_shift (chosen ▸ min_le_left _ _)
  have amount : (firstExponent - secondExponent - target).toNat = shift := by omega
  have least := canonical.least_le
  have atMost : target ≤
      max (totalExponent first firstExponent - totalExponent second secondExponent - 53) (-1074) :=
    chosen ▸ min_le_right _ _
  -- The digits that the target leaves to the quotient are enough for the mantissa of the double.
  have places {bits : ℕ} (inside : (first * 2 ^ firstExponent : ℚ) / (second * 2 ^ secondExponent) <
      2 ^ bits * 2 ^ number.exponent) :
      totalExponent first firstExponent - totalExponent second secondExponent - 1 <
        number.exponent + bits := by
    rw [mul_comm ((2 : ℚ) ^ bits), ← two_zpow_add] at inside
    exact (zpow_lt_zpow_iff_right₀ one_lt_two).1 (digit.trans inside)
  have fine : target ≤ number.exponent := by
    have reach := places (canonical.value_lt near)
    omega
  have finer : (first * 2 ^ firstExponent : ℚ) / (second * 2 ^ secondExponent) <
      2 ^ 52 * 2 ^ number.exponent → -1074 < number.exponent → target < number.exponent := by
    intro small normal
    have reach := places small
    omega
  have rounded := canonical.roundWithAccuracy_eq near positive
    (represents_quotient firstExponent secondExponent secondPos reached) fine finer .positive
  simp only [UnpackedFloat.div, divCore, ← chosen, amount]
  exact rounded

end Binary.IsCanonical

/-- A double is a given positive number, with a mantissa of 53 bits. -/
def IsExactly (float : Float) (value : ℚ) : Prop :=
  ∃ mantissa exponent, ∃ positive : 0 < mantissa,
    float.toModel.unpack = .finite .positive mantissa exponent positive ∧ 2 ^ 52 ≤ mantissa ∧
      mantissa * 2 ^ exponent = value

namespace Binary.IsCanonical

variable {number : Binary} (canonical : number.IsCanonical)

include canonical

theorem isExactly_toFloat (positive : 0 < number.mantissa) (sign : number.negative = false)
    (full : 2 ^ 52 ≤ number.mantissa) :
    IsExactly (number.toFloat positive) number.magnitude := by
  refine ⟨number.mantissa, number.exponent, positive, ?_, full, rfl⟩
  rw [canonical.unpack_toFloat, sign]
  rfl

theorem mul_eq_toFloat (positive : 0 < number.mantissa) (sign : number.negative = false)
    {first second : Float} {firstValue secondValue : ℚ} (firstIs : IsExactly first firstValue)
    (secondIs : IsExactly second secondValue)
    (near : number.IsNearestTo (firstValue * secondValue)) :
    first * second = number.toFloat positive := by
  obtain ⟨mantissa, exponent, mantissaPos, unpacked, full, rfl⟩ := firstIs
  obtain ⟨other, otherExponent, otherPos, otherUnpacked, otherFull, rfl⟩ := secondIs
  have enough : 2 ^ 53 ≤ mantissa * other :=
    le_trans (by norm_num) (Nat.mul_le_mul full otherFull)
  change Float.ofModel
    (.pack (UnpackedFloat.mul .binary64 first.toModel.unpack second.toModel.unpack)) = _
  rw [unpacked, otherUnpacked, canonical.mul_eq positive near mantissaPos otherPos enough, toFloat,
    sign]
  rfl

theorem div_eq_toFloat (positive : 0 < number.mantissa) (sign : number.negative = false)
    {first second : Float} {firstValue secondValue : ℚ} (firstIs : IsExactly first firstValue)
    (secondIs : IsExactly second secondValue)
    (near : number.IsNearestTo (firstValue / secondValue)) :
    first / second = number.toFloat positive := by
  obtain ⟨mantissa, exponent, mantissaPos, unpacked, -, rfl⟩ := firstIs
  obtain ⟨other, otherExponent, otherPos, otherUnpacked, -, rfl⟩ := secondIs
  change Float.ofModel
    (.pack (UnpackedFloat.div .binary64 first.toModel.unpack second.toModel.unpack)) = _
  rw [unpacked, otherUnpacked, canonical.div_eq positive near mantissaPos otherPos, toFloat, sign]
  rfl

end Binary.IsCanonical

/-- A whole number of at most 53 bits, shifted to a mantissa of 53 bits. -/
def Binary.ofWhole (whole : ℕ) : Binary :=
  ⟨false, whole <<< (52 - whole.log2), -((52 - whole.log2 : ℕ) : ℤ)⟩

namespace Binary

variable {whole : ℕ} (positive : 0 < whole) (small : whole < 2 ^ 53)

include positive small

theorem full_ofWhole : 2 ^ 52 ≤ (ofWhole whole).mantissa := by
  have bits : whole.log2 ≤ 52 := Nat.le_of_lt_succ ((Nat.log2_lt positive.ne').2 small)
  calc 2 ^ 52 = 2 ^ whole.log2 * 2 ^ (52 - whole.log2) := by
        rw [← pow_add, Nat.add_sub_cancel' bits]
    _ ≤ whole * 2 ^ (52 - whole.log2) :=
        Nat.mul_le_mul_right _ (Nat.log2_self_le positive.ne')
    _ = (ofWhole whole).mantissa := (Nat.shiftLeft_eq _ _).symm

theorem canonical_ofWhole : (ofWhole whole).IsCanonical := by
  have bits : whole.log2 ≤ 52 := Nat.le_of_lt_succ ((Nat.log2_lt positive.ne').2 small)
  have short : (ofWhole whole).mantissa < 2 ^ 53 := by
    calc (ofWhole whole).mantissa = whole * 2 ^ (52 - whole.log2) := Nat.shiftLeft_eq _ _
      _ < 2 ^ (whole.log2 + 1) * 2 ^ (52 - whole.log2) :=
          Nat.mul_lt_mul_of_pos_right Nat.lt_log2_self (Nat.two_pow_pos _)
      _ = 2 ^ 53 := by
          rw [← pow_add]
          congr 1
          omega
  refine ⟨short, .inl (full_ofWhole positive small), ?_, ?_⟩ <;> simp only [ofWhole] <;> omega

omit positive small in
theorem magnitude_ofWhole (whole : ℕ) : (ofWhole whole).magnitude = whole := by
  simp only [magnitude, ofWhole, Nat.shiftLeft_eq, zpow_neg, zpow_natCast]
  push_cast
  exact mul_inv_cancel_right₀ (pow_ne_zero _ two_ne_zero) _

theorem round_whole : ∃ mantissaPos, UnpackedFloat.round .binary64 .positive whole 0 =
    .finite .positive (ofWhole whole).mantissa (ofWhole whole).exponent mantissaPos := by
  have bits : whole.log2 ≤ 52 := Nat.le_of_lt_succ ((Nat.log2_lt positive.ne').2 small)
  have mantissaPos : 0 < (ofWhole whole).mantissa :=
    lt_of_lt_of_le (Nat.two_pow_pos 52) (full_ofWhole positive small)
  have canonical := canonical_ofWhole positive small
  have target : Format.binary64.targetExponent (totalExponent whole 0) =
      -((52 - whole.log2 : ℕ) : ℤ) := by
    change max ((whole.log2 : ℤ) + 1 + 0 - 53) (-1074) = _
    omega
  have decreased : decreaseExponent whole 0 (-((52 - whole.log2 : ℕ) : ℤ)) =
      ((ofWhole whole).mantissa, (ofWhole whole).exponent) := by
    have amount : (0 - -((52 - whole.log2 : ℕ) : ℤ)).toNat = 52 - whole.log2 := by omega
    simp only [decreaseExponent, amount]
    rw [zero_sub, ofWhole]
  have exact : Represents (.ofMantissaAndAccuracy (ofWhole whole).mantissa .exact)
      ((ofWhole whole).magnitude / 2 ^ (ofWhole whole).exponent) := by
    rw [magnitude, mul_div_cancel_right₀ _ (two_zpow_pos _).ne']
    exact represents_exact _
  have notSmall : ¬ (ofWhole whole).magnitude < 2 ^ 52 * 2 ^ (ofWhole whole).exponent := by
    have full : (2 ^ 52 : ℚ) ≤ (ofWhole whole).mantissa := by
      exact_mod_cast full_ofWhole positive small
    exact not_lt.2 (mul_le_mul_of_nonneg_right full (two_zpow_pos _).le)
  refine ⟨mantissaPos, ?_⟩
  simp only [UnpackedFloat.round, target, decreased]
  exact canonical.roundWithAccuracy_eq (isNearestTo_magnitude _) mantissaPos exact le_rfl
    (fun below => absurd below notSmall) .positive

end Binary

/-- A positive whole number of at most 53 bits is a double. -/
theorem isExactly_natCast {whole : ℕ} (positive : 0 < whole) (small : whole < 2 ^ 53) :
    IsExactly whole.toUInt64.toFloat whole := by
  obtain ⟨mantissaPos, rounded⟩ := Binary.round_whole positive small
  have converted : whole.toUInt64.toFloat = (Binary.ofWhole whole).toFloat mantissaPos := by
    have value : whole.toUInt64.toNat = whole := by
      rw [Nat.toUInt64, UInt64.toNat_ofNat']
      exact Nat.mod_eq_of_lt (by omega)
    have sign : compare (whole : ℤ) 0 = .gt := Int.compare_eq_gt.2 (by omega)
    change Float.ofModel
      (.pack (UnpackedFloat.normalize .binary64 (whole.toUInt64.toNat : ℤ) 0 .positive)) = _
    rw [value, UnpackedFloat.normalize, sign]
    simp only [Int.toNat_natCast, rounded]
    rfl
  rw [converted, ← Binary.magnitude_ofWhole whole]
  exact (Binary.canonical_ofWhole positive small).isExactly_toFloat mantissaPos rfl
    (Binary.full_ofWhole positive small)

/-- The double of a binary fraction is the only one with it. -/
theorem eq_toFloat_of_ofFloat? {float : Float} {number : Binary}
    (read : Binary.ofFloat? float = some number) (positive : 0 < number.mantissa) :
    float = number.toFloat positive :=
  ofFloat?_injective read ((Binary.IsCanonical.of_ofFloat? read).ofFloat?_toFloat positive)

/-- The powers of ten in the table of exact ones are exact. -/
theorem isExactly_powerOfTen (power : Fin 23) :
    IsExactly Float.exactlyRepresentablePowersOfTen[power] (10 ^ power.val) := by
  -- There are few powers, so the bits of each can be compared with it.
  have entries : ∀ power : Fin 23,
      (Binary.ofFloat? Float.exactlyRepresentablePowersOfTen[power]).any fun number =>
        !number.negative && 2 ^ 52 ≤ number.mantissa && -52 ≤ number.exponent &&
          number.mantissa * 2 ^ (number.exponent + 52).toNat = 10 ^ power.val * 2 ^ 52 := by
    decide +kernel
  obtain ⟨number, read, checked⟩ := (Option.any_eq_true _ _).1 (entries power)
  simp only [Bool.and_eq_true, Bool.not_eq_true', decide_eq_true_eq] at checked
  obtain ⟨⟨⟨sign, full⟩, least⟩, product⟩ := checked
  have positive : 0 < number.mantissa := lt_of_lt_of_le (Nat.two_pow_pos 52) full
  have canonical := Binary.IsCanonical.of_ofFloat? read
  have magnitude : number.magnitude = 10 ^ power.val := by
    obtain ⟨shift, exponent⟩ : ∃ shift : ℕ, number.exponent = -52 + shift := exists_shift least
    have amount : (number.exponent + 52).toNat = shift := by omega
    have scaled : (number.mantissa : ℚ) * 2 ^ shift = 10 ^ power.val * 2 ^ 52 := by
      rw [amount] at product
      exact_mod_cast product
    rw [Binary.magnitude, exponent, two_zpow_add, mul_left_comm, scaled, mul_left_comm]
    norm_num
  rw [eq_toFloat_of_ofFloat? read positive, ← magnitude]
  exact canonical.isExactly_toFloat positive sign full

end MessageBlocks.Number
