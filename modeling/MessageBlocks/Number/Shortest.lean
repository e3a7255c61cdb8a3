import MessageBlocks.Number.Binary

/-!
# Shortest decimals

The decimal chosen for a double is the one with the fewest digits among those
that lie in the interval of reals which round to that double, and of these the
nearest. The search goes through decimal grids from coarse to fine. A grid with
a point in the interval has one of the two neighbours of the value in it, so
only these two are tried. If both fit, the nearer one wins and an exact tie goes
up.
-/

namespace MessageBlocks.Number

/-- The number `coefficient * 10 ^ exponent`. -/
structure Decimal where
  coefficient : Nat
  exponent : Int
  deriving DecidableEq, Repr

/-- A positive value with the ends of the interval that rounds to it, as
multiples of one fraction `numerator / denominator`. The ends belong to the
interval exactly if the mantissa is even. -/
structure Interval where
  low : Nat
  value : Nat
  high : Nat
  closed : Bool
  numerator : Nat
  denominator : Nat
  deriving DecidableEq, Repr

/-- The interval of a positive double. The gap below a power of two is half the
gap above it, except at the smallest scale. -/
def Interval.ofBinary (number : Binary) : Interval :=
  let isBorder := number.mantissa = powerOfTwo 52 ∧ -1074 < number.exponent
  let scale := number.exponent - 2
  { low := 4 * number.mantissa - (if isBorder then 1 else 2)
    value := 4 * number.mantissa
    high := 4 * number.mantissa + 2
    closed := number.mantissa % 2 = 0
    numerator := powerOfTwo scale.toNat
    denominator := powerOfTwo (-scale).toNat }

namespace Interval

/-- Whether the multiple `count` of `10 ^ exponent` lies in the interval. -/
def holds (interval : Interval) (count : Nat) (exponent : Int) : Bool :=
  let point := count * powerOfTen exponent.toNat * interval.denominator
  let unit := interval.numerator * powerOfTen (-exponent).toNat
  if interval.closed then interval.low * unit ≤ point && point ≤ interval.high * unit
  else interval.low * unit < point && point < interval.high * unit

/-- The decimal of the grid `10 ^ exponent` nearest to the value among those in
the interval. -/
def onGrid? (interval : Interval) (exponent : Int) : Option Decimal :=
  let dividend := interval.value * interval.numerator * powerOfTen (-exponent).toNat
  let divisor := interval.denominator * powerOfTen exponent.toNat
  let below := dividend / divisor
  let lower := interval.holds below exponent
  let upper := interval.holds (below + 1) exponent
  if lower && (!upper || 2 * (dividend % divisor) < divisor) then some ⟨below, exponent⟩
  else if upper then some ⟨below + 1, exponent⟩
  else none

/-- Try the grids from `10 ^ exponent` on, each ten times finer than the one
before. -/
def search (interval : Interval) : Nat → Int → Decimal
  | 0, exponent => ⟨interval.value * interval.numerator / interval.denominator, exponent⟩
  | steps + 1, exponent =>
      (interval.onGrid? exponent).getD (search interval steps (exponent - 1))

/-- An exponent of ten whose power is not below the value. -/
def ceilingExponent (interval : Interval) : Int :=
  let dividend := interval.value * interval.numerator
  if interval.denominator ≤ dividend then
    (Nat.toDigits 10 (dividend / interval.denominator)).length
  else 1 - ((Nat.toDigits 10 (interval.denominator / dividend)).length : Int)

end Interval

/-- The shortest decimal that rounds to a positive double. Seventeen digits
always suffice, so nineteen grids are enough. -/
def shortest (number : Binary) : Decimal :=
  let interval := Interval.ofBinary number
  interval.search 19 interval.ceilingExponent

end MessageBlocks.Number
