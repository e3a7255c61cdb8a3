import MessageBlocks.Number.Power

/-!
# Doubles as signed binary fractions

A finite double is a sign, a whole mantissa and a power of two. Whole parts,
roundings to integers and the test for integral values are taken from that
form with integer arithmetic, so they are exact and can be reasoned about.
-/

namespace MessageBlocks.Number

/-- The magnitude `mantissa * 2 ^ exponent` with a sign. -/
structure Binary where
  negative : Bool
  mantissa : Nat
  exponent : Int
  deriving DecidableEq, Repr

def isNegative (value : Float) : Bool :=
  value.toBits.toNat / powerOfTwo 63 == 1

/-- The binary fraction that a double stands for. Infinities and NaN have none. -/
def Binary.ofFloat? (value : Float) : Option Binary :=
  let bits := value.toBits.toNat
  let scale : Nat := bits / powerOfTwo 52 % powerOfTwo 11
  let fraction : Nat := bits % powerOfTwo 52
  if scale = 2047 then none
  else if scale = 0 then some ⟨isNegative value, fraction, -1074⟩
  else some ⟨isNegative value, fraction + powerOfTwo 52, (scale : Int) - 1075⟩

namespace Binary

def whole (number : Binary) : Nat :=
  if 0 ≤ number.exponent then number.mantissa * powerOfTwo number.exponent.toNat
  else number.mantissa / powerOfTwo (-number.exponent).toNat

def isIntegral (number : Binary) : Bool :=
  0 ≤ number.exponent || number.mantissa % powerOfTwo (-number.exponent).toNat == 0

def truncate (number : Binary) : Int :=
  if number.negative then -(number.whole : Int) else number.whole

/-- The greatest integer that is not above the number. -/
def floor (number : Binary) : Int :=
  if number.negative && !number.isIntegral then -(number.whole : Int) - 1
  else number.truncate

end Binary

def minInt64 : Int :=
  -(powerOfTwo 63 : Int)

def maxInt64 : Int :=
  (powerOfTwo 63 : Int) - 1

def fitsInt64 (value : Int) : Bool :=
  minInt64 ≤ value && value ≤ maxInt64

def clampInt64 (value : Int) : Int :=
  max minInt64 (min maxInt64 value)

/-- The 64-bit integer nearest to a double after dropping its fraction. NaN
gives zero. -/
def toInt64Clamped (value : Float) : Int :=
  match Binary.ofFloat? value with
  | some number => clampInt64 number.truncate
  | none => if value.isNaN then 0 else if isNegative value then minInt64 else maxInt64

end MessageBlocks.Number
