import MessageBlocks.Proofs.Number.Rounding

/-!
# The bits of doubles

A finite double is packed into its bits and read from them again as it was. So the binary fraction
of a double, which is taken from its bits, is the one that it was packed from.
-/

namespace MessageBlocks.Number

open Float.Model Float.Model.UnpackedFloat

theorem toNat_packComponents (sign : Sign) (exponent : BitVec 11) (mantissa : BitVec 52) :
    (packComponents .binary64 sign exponent mantissa).toNat =
      (sign.toBitVec.toNat * 2 ^ 11 + exponent.toNat) * 2 ^ 52 + mantissa.toNat := by
  rw [packComponents, BitVec.toNat_append, BitVec.toNat_append,
    ← Nat.shiftLeft_add_eq_or_of_lt mantissa.isLt, ← Nat.shiftLeft_add_eq_or_of_lt exponent.isLt,
    Nat.shiftLeft_eq, Nat.shiftLeft_eq]

theorem toNat_one_append (mantissa : BitVec 52) :
    (1#1 ++ mantissa).toNat = 2 ^ 52 + mantissa.toNat := by
  rw [BitVec.toNat_append, ← Nat.shiftLeft_add_eq_or_of_lt mantissa.isLt]
  rfl

namespace Binary.IsCanonical

variable {number : Binary} (canonical : number.IsCanonical)

include canonical

theorem toNat_exponentBits : (BitVec.ofNat 11 (number.exponent + 1075).toNat).toNat =
    (number.exponent + 1075).toNat := by
  have greatest := canonical.le_greatest
  rw [BitVec.toNat_ofNat, Nat.mod_eq_of_lt (by omega)]

theorem toNat_mantissaBits_of_normal (normal : 2 ^ 52 ≤ number.mantissa) :
    2 ^ 52 + (BitVec.ofNat 52 number.mantissa).toNat = number.mantissa := by
  have small := canonical.mantissa_lt
  rw [BitVec.toNat_ofNat]
  omega

omit canonical in
theorem toNat_mantissaBits_of_subnormal (subnormal : ¬ 2 ^ 52 ≤ number.mantissa) :
    (BitVec.ofNat 52 number.mantissa).toNat = number.mantissa := by
  rw [BitVec.toNat_ofNat, Nat.mod_eq_of_lt (not_le.1 subnormal)]

theorem pack_eq (sign : Sign) (positive : 0 < number.mantissa) :
    UnpackedFloat.pack .binary64 (.finite sign number.mantissa number.exponent positive) =
      packComponents .binary64 sign
        (if 2 ^ 52 ≤ number.mantissa then BitVec.ofNat 11 (number.exponent + 1075).toNat else 0#11)
        (BitVec.ofNat 52 number.mantissa) := by
  have small := canonical.mantissa_lt
  have least := canonical.least_le
  have greatest := canonical.le_greatest
  have biased : number.exponent + Format.binary64.exponentBias +
      Format.binary64.mantissaBitsWithoutImplicit = number.exponent + 1075 :=
    Int.add_assoc number.exponent 1023 52
  have inRange : ¬ 2 ^ Format.binary64.exponentBits ≤ (number.exponent + 1075).toNat + 1 := by
    have range : 2 ^ Format.binary64.exponentBits = 2048 := rfl
    omega
  have bits : number.mantissa.log2 + 1 = Format.binary64.mantissaBits ↔
      2 ^ 52 ≤ number.mantissa := by
    have all : Format.binary64.mantissaBits = 53 := rfl
    have bound : number.mantissa.log2 < 53 := (Nat.log2_lt positive.ne').2 small
    rw [← Nat.le_log2 positive.ne', all]
    omega
  rw [UnpackedFloat.pack, biased, if_neg inRange]
  simp only [bits]
  split <;> rfl

theorem unpack_pack (sign : Sign) (positive : 0 < number.mantissa) :
    UnpackedFloat.unpack .binary64
        (UnpackedFloat.pack .binary64 (.finite sign number.mantissa number.exponent positive)) =
      .finite sign number.mantissa number.exponent positive := by
  have least := canonical.least_le
  have greatest := canonical.le_greatest
  rw [canonical.pack_eq]
  simp only [UnpackedFloat.unpack, unpackMantissa_packComponents, unpackExponent_packComponents,
    unpackSign_packComponents, Sign.ofBitVec_toBitVec]
  by_cases normal : 2 ^ 52 ≤ number.mantissa
  · have scale := canonical.toNat_exponentBits
    have notAll : BitVec.ofNat 11 (number.exponent + 1075).toNat ≠ -1#11 := by
      intro all
      have same := congrArg BitVec.toNat all
      rw [scale, show (-1#11).toNat = 2047 from rfl] at same
      omega
    have notZero : BitVec.ofNat 11 (number.exponent + 1075).toNat ≠ 0#11 := by
      intro zero
      have same := congrArg BitVec.toNat zero
      rw [scale, show (0#11).toNat = 0 from rfl] at same
      omega
    have mantissa : (1#1 ++ BitVec.ofNat 52 number.mantissa).toNat = number.mantissa :=
      (toNat_one_append _).trans (canonical.toNat_mantissaBits_of_normal normal)
    simp only [if_pos normal, if_neg notAll, if_neg notZero, finite.injEq, true_and]
    refine ⟨mantissa, ?_⟩
    rw [scale]
    have bias : Format.binary64.exponentBias = 1023 := rfl
    omega
  · have mantissa := toNat_mantissaBits_of_subnormal normal
    have nonzero : BitVec.ofNat 52 number.mantissa ≠ 0#52 := by
      intro zero
      have same := congrArg BitVec.toNat zero
      rw [mantissa, show (0#52).toNat = 0 from rfl] at same
      omega
    have exponent : number.exponent = -1074 := canonical.full.resolve_left normal
    have notAll : 0#11 ≠ -1#11 := by decide
    simp only [if_neg normal, if_neg notAll, if_true, dif_neg nonzero, finite.injEq, true_and]
    refine ⟨mantissa, ?_⟩
    rw [exponent]
    rfl

omit canonical in
/-- The binary fraction of a double has a mantissa and an exponent that doubles have. -/
theorem of_ofFloat? {value : Float} (read : Binary.ofFloat? value = some number) :
    number.IsCanonical := by
  have full : powerOfTwo 52 = 2 ^ 52 := rfl
  have fraction : value.toBits.toNat % powerOfTwo 52 < 2 ^ 52 := Nat.mod_lt _ (Nat.two_pow_pos 52)
  have scale : value.toBits.toNat / powerOfTwo 52 % powerOfTwo 11 < 2 ^ 11 :=
    Nat.mod_lt _ (Nat.two_pow_pos 11)
  simp only [Binary.ofFloat?] at read
  split at read
  · cases read
  · split at read
    · obtain rfl := Option.some.inj read
      constructor <;> dsimp only <;> omega
    · obtain rfl := Option.some.inj read
      constructor <;> dsimp only <;> omega

end Binary.IsCanonical

/-- The bits of a finite double, of which its binary fraction says everything. -/
theorem toBits_of_ofFloat? {value : Float} {number : Binary}
    (read : Binary.ofFloat? value = some number) :
    value.toBits.toNat = (if number.negative then 2 ^ 63 else 0) +
      (number.exponent + 1074).toNat * 2 ^ 52 + number.mantissa := by
  have bound : value.toBits.toNat < 2 ^ 64 := value.toBits.toNat_lt
  have sign : (if isNegative value then 2 ^ 63 else 0) = value.toBits.toNat / 2 ^ 63 * 2 ^ 63 := by
    have bit : value.toBits.toNat / 2 ^ 63 = 0 ∨ value.toBits.toNat / 2 ^ 63 = 1 := by omega
    rw [isNegative, show powerOfTwo 63 = 2 ^ 63 from rfl]
    rcases bit with zero | one
    · rw [zero]
      rfl
    · rw [one]
      rfl
  have full : powerOfTwo 52 = 2 ^ 52 := rfl
  have scales : powerOfTwo 11 = 2 ^ 11 := rfl
  simp only [Binary.ofFloat?] at read
  rw [full, scales] at read
  split at read
  · cases read
  · split at read
    · obtain rfl := Option.some.inj read
      rw [sign]
      dsimp only
      omega
    · obtain rfl := Option.some.inj read
      rw [sign]
      dsimp only
      omega

/-- A double is its bits. -/
theorem toBits_injective {first second : Float}
    (same : first.toBits.toNat = second.toBits.toNat) : first = second := by
  obtain ⟨⟨firstBits, _⟩⟩ := first
  obtain ⟨⟨secondBits, _⟩⟩ := second
  obtain rfl : firstBits = secondBits := UInt64.toNat_inj.1 same
  rfl

theorem ofFloat?_injective {first second : Float} {number : Binary}
    (readFirst : Binary.ofFloat? first = some number)
    (readSecond : Binary.ofFloat? second = some number) : first = second := by
  have bits : first.toBits.toNat = second.toBits.toNat := by
    rw [toBits_of_ofFloat? readFirst, toBits_of_ofFloat? readSecond]
  exact toBits_injective bits

/-- The sign of a number that is negative or not. -/
def signOf (negative : Bool) : Sign :=
  if negative then .negative else .positive

namespace Binary

/-- The double with a given sign and a magnitude that doubles have. -/
def toFloat (number : Binary) (positive : 0 < number.mantissa) : Float :=
  .ofModel (.pack (.finite (signOf number.negative) number.mantissa number.exponent positive))

namespace IsCanonical

variable {number : Binary} (canonical : number.IsCanonical)

include canonical

theorem unpack_toFloat (positive : 0 < number.mantissa) :
    (number.toFloat positive).toModel.unpack =
      .finite (signOf number.negative) number.mantissa number.exponent positive :=
  canonical.unpack_pack (signOf number.negative) positive

omit canonical in
theorem ofFloat?_of_bits {value : Float} {sign scale fraction : ℕ}
    (bits : value.toBits.toNat = (sign * 2 ^ 11 + scale) * 2 ^ 52 + fraction)
    (scale_lt : scale < 2 ^ 11) (fraction_lt : fraction < 2 ^ 52) :
    Binary.ofFloat? value =
      if scale = 2047 then none
      else if scale = 0 then some ⟨sign == 1, fraction, -1074⟩
      else some ⟨sign == 1, fraction + 2 ^ 52, (scale : ℤ) - 1075⟩ := by
  have signs : value.toBits.toNat / powerOfTwo 63 = sign := by
    rw [bits, show powerOfTwo 63 = 2 ^ 63 from rfl]
    omega
  have scales : value.toBits.toNat / powerOfTwo 52 % powerOfTwo 11 = scale := by
    rw [bits, show powerOfTwo 52 = 2 ^ 52 from rfl, show powerOfTwo 11 = 2 ^ 11 from rfl]
    omega
  have fractions : value.toBits.toNat % powerOfTwo 52 = fraction := by
    rw [bits, show powerOfTwo 52 = 2 ^ 52 from rfl]
    omega
  simp only [Binary.ofFloat?, isNegative, signs, scales, fractions]
  rfl

theorem ofFloat?_toFloat (positive : 0 < number.mantissa) :
    Binary.ofFloat? (number.toFloat positive) = some number := by
  have bits : (number.toFloat positive).toBits.toNat =
      (UnpackedFloat.pack .binary64
        (.finite (signOf number.negative) number.mantissa number.exponent positive)).toNat := rfl
  rw [canonical.pack_eq, toNat_packComponents] at bits
  rw [ofFloat?_of_bits bits (BitVec.isLt _) (BitVec.isLt _)]
  have least := canonical.least_le
  have greatest := canonical.le_greatest
  have sign : ((signOf number.negative).toBitVec.toNat == 1) = number.negative := by
    cases number.negative <;> rfl
  rw [sign]
  by_cases normal : 2 ^ 52 ≤ number.mantissa
  · have fraction := canonical.toNat_mantissaBits_of_normal normal
    have exponent : ((number.exponent + 1075).toNat : ℤ) - 1075 = number.exponent := by omega
    rw [if_pos normal, canonical.toNat_exponentBits, if_neg (by omega), if_neg (by omega),
      Nat.add_comm, fraction, exponent]
  · have fraction := toNat_mantissaBits_of_subnormal normal
    have exponent : number.exponent = -1074 := canonical.full.resolve_left normal
    have scale : (0#11).toNat = 0 := rfl
    rw [if_neg normal, scale, if_neg (by decide), if_pos rfl, fraction, ← exponent]

theorem neg_toFloat (positive : 0 < number.mantissa) :
    -number.toFloat positive =
      ({ number with negative := !number.negative } : Binary).toFloat positive := by
  have unpacked := canonical.unpack_toFloat positive
  change Float.ofModel (.pack (number.toFloat positive).toModel.unpack.neg) = _
  rw [unpacked]
  obtain ⟨negative, mantissa, exponent⟩ := number
  cases negative <;> rfl

end IsCanonical

end Binary

end MessageBlocks.Number
