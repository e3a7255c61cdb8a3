import MessageBlocks.Layout.Width
import MessageBlocks.Proofs.Number.Value

/-!
# The order of doubles

The order of widths tells all doubles apart, for it is the order of whole numbers that are made of
all of their bits. Among positive doubles it is the order of the numbers that they stand for: the
exponent stands in the higher bits, and a mantissa with a greater exponent is never too small to
count.
-/

namespace MessageBlocks

namespace Number

open Float.Model

variable {value first second : Float}

theorem isNegative_iff : isNegative value = true ↔ 2 ^ 63 ≤ value.toBits.toNat := by
  have bound : value.toBits.toNat < 2 ^ 64 := value.toBits.toNat_lt
  rw [isNegative, beq_iff_eq, show powerOfTwo 63 = 2 ^ 63 from rfl]
  omega

theorem orderKey_injective (same : orderKey first = orderKey second) : first = second := by
  have bound : first.toBits.toNat < 2 ^ 64 := first.toBits.toNat_lt
  have boundNext : second.toBits.toNat < 2 ^ 64 := second.toBits.toNat_lt
  simp only [orderKey, isNegative_iff, show powerOfTwo 63 = 2 ^ 63 from rfl] at same
  apply toBits_injective
  split_ifs at same <;> omega

theorem orderKey_of_pos {mantissa : ℕ} {exponent : ℤ}
    (read : Binary.ofFloat? value = some ⟨false, mantissa, exponent⟩) :
    orderKey value = (exponent + 1074) * 2 ^ 52 + mantissa := by
  have canonical := Binary.IsCanonical.of_ofFloat? read
  have small : mantissa < 2 ^ 53 := canonical.mantissa_lt
  have least : -1074 ≤ exponent := canonical.least_le
  have greatest : exponent ≤ 971 := canonical.le_greatest
  have bits : value.toBits.toNat = 0 + (exponent + 1074).toNat * 2 ^ 52 + mantissa :=
    toBits_of_ofFloat? read
  have notNegative : ¬ isNegative value = true := by
    rw [isNegative_iff]
    omega
  rw [orderKey, if_neg notNegative, show powerOfTwo 63 = 2 ^ 63 from rfl]
  omega

/-- Of two doubles the one with the greater exponent has the greater bits: its mantissa has a
leading one, and the other mantissa is less than twice that. -/
theorem Binary.IsCanonical.bits_lt {number other : Binary} (canonical : number.IsCanonical)
    (otherCanonical : other.IsCanonical) (below : number.exponent < other.exponent) :
    (number.exponent + 1074) * 2 ^ 52 + number.mantissa <
      (other.exponent + 1074) * 2 ^ 52 + other.mantissa := by
  have small := canonical.mantissa_lt
  have least := canonical.least_le
  have leading : 2 ^ 52 ≤ other.mantissa := otherCanonical.full.resolve_right (by omega)
  omega

theorem Binary.IsCanonical.compare_eq {number other : Binary} (canonical : number.IsCanonical)
    (otherCanonical : other.IsCanonical) :
    (compare number.exponent other.exponent).then (compare number.mantissa other.mantissa) =
      compare ((number.exponent + 1074) * 2 ^ 52 + number.mantissa)
        ((other.exponent + 1074) * 2 ^ 52 + other.mantissa) := by
  rcases lt_trichotomy number.exponent other.exponent with below | same | above
  · rw [compare_lt_iff_lt.2 (canonical.bits_lt otherCanonical below), compare_lt_iff_lt.2 below]
    rfl
  · rw [same, compare_eq_iff_eq.2 rfl, Ordering.eq_then]
    rcases lt_trichotomy number.mantissa other.mantissa with less | equal | greater
    · rw [compare_lt_iff_lt.2 less, eq_comm, compare_lt_iff_lt]
      omega
    · rw [equal, compare_eq_iff_eq.2 rfl, compare_eq_iff_eq.2 rfl]
    · rw [compare_gt_iff_gt.2 greater, eq_comm, compare_gt_iff_gt]
      omega
  · rw [compare_gt_iff_gt.2 (otherCanonical.bits_lt canonical above), compare_gt_iff_gt.2 above]
    rfl

end Number

namespace Width

open Number Float.Model

instance : Std.TransCmp (Width.order : Float → Float → Ordering) :=
  inferInstanceAs (Std.TransCmp (compareOn orderKey))

instance : Std.LawfulEqCmp (Width.order : Float → Float → Ordering) where
  compare_self := Std.ReflCmp.compare_self
  eq_of_compare same := orderKey_injective (Std.LawfulEqOrd.eq_of_compare same)

section Positive

variable {first second : Float} (finiteFirst : first.isFinite = true) (positiveFirst : 0 < first)
  (finiteSecond : second.isFinite = true) (positiveSecond : 0 < second)

include finiteFirst positiveFirst finiteSecond positiveSecond

theorem compare_unpack : UnpackedFloat.compare first.toModel.unpack second.toModel.unpack =
    some (Width.order first second) := by
  obtain ⟨mantissa, exponent, read, nonzero⟩ := exists_ofFloat?_of_pos finiteFirst positiveFirst
  obtain ⟨other, power, readSecond, nonzeroSecond⟩ :=
    exists_ofFloat?_of_pos finiteSecond positiveSecond
  have same := (Binary.IsCanonical.of_ofFloat? read).compare_eq (.of_ofFloat? readSecond)
  have order : Width.order first second = compare (orderKey first) (orderKey second) := rfl
  rw [order, orderKey_of_pos read, orderKey_of_pos readSecond, unpack_of_ofFloat? read,
    unpack_of_ofFloat? readSecond, dif_pos nonzero, dif_pos nonzeroSecond]
  exact congrArg some same

theorem lt_iff_order : first < second ↔ Width.order first second = .lt := by
  have compared := compare_unpack finiteFirst positiveFirst finiteSecond positiveSecond
  have lt : first < second ↔
      (UnpackedFloat.compare first.toModel.unpack second.toModel.unpack == some .lt) = true :=
    decide_eq_true_iff
  rw [lt, compared, beq_iff_eq, Option.some_inj]

theorem le_iff_order : first ≤ second ↔ (Width.order first second).isLE = true := by
  have compared := compare_unpack finiteFirst positiveFirst finiteSecond positiveSecond
  have le : first ≤ second ↔
      (UnpackedFloat.compare first.toModel.unpack second.toModel.unpack).any (·.isLE) = true :=
    decide_eq_true_iff
  rw [le, compared, Option.any_some]

theorem beq_iff_eq_of_pos : (first == second) = true ↔ first = second := by
  have compared := compare_unpack finiteFirst positiveFirst finiteSecond positiveSecond
  have beq : (first == second) =
      (UnpackedFloat.compare first.toModel.unpack second.toModel.unpack == some .eq) := rfl
  rw [beq, compared, beq_iff_eq, Option.some_inj, Std.LawfulEqCmp.compare_eq_iff_eq]

end Positive

end Width

end MessageBlocks
