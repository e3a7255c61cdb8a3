import MessageBlocks.Number.Binary

/-!
# Widths

Layout adds, divides and compares widths. It is written once over any type with
these operations. The program runs on doubles; over the rationals the same
definitions say what layout would do without rounding.
-/

namespace MessageBlocks

/-- The arithmetic that layout needs. Comparisons are those of the numbers, so
that nothing is below or above NaN, whereas `order` is a total order that tells
all widths apart. -/
class Width (W : Type) extends Add W, Sub W, Mul W, Div W where
  /-- The empty width. -/
  zero : W
  /-- The slack that absorbs rounding when a width is a multiple of another. -/
  slack : W
  /-- A count of units as a width. -/
  ofCount : Nat → W
  /-- The greatest count that is not above the width, zero if there is none. -/
  wholePart : W → Nat
  /-- Whether one width is below another. -/
  below : W → W → Bool
  /-- Whether the width is a number. -/
  isFinite : W → Bool
  /-- The total order of widths. -/
  order : W → W → Ordering

namespace Number

/-- The place of a double in the total order of doubles: by magnitude, the
negative ones reversed, negative zero before zero. -/
def orderKey (value : Float) : Int :=
  let magnitude : Nat := value.toBits.toNat % powerOfTwo 63
  if isNegative value then -(magnitude : Int) - 1 else magnitude

end Number

instance : Width Float where
  zero := 0
  slack := 0.000001
  ofCount := Float.ofNat
  wholePart value :=
    match Number.Binary.ofFloat? value with
    | some number => number.truncate.toNat
    | none => if 0 < value then Number.powerOfTwo 64 - 1 else 0
  below first second := first < second
  isFinite := Float.isFinite
  order first second := compare (Number.orderKey first) (Number.orderKey second)

instance : Width Rat where
  zero := 0
  slack := 1 / 1000000
  ofCount count := count
  wholePart value := value.floor.toNat
  below first second := first < second
  isFinite _ := true
  order first second := if first < second then .lt else if second < first then .gt else .eq

namespace Width

/-- The larger of two widths, where NaN counts for nothing. -/
def larger {W : Type} [Width W] (first second : W) : W :=
  if below first second then second else first

end Width

end MessageBlocks
