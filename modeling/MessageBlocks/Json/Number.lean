import MessageBlocks.Json.Basic
import MessageBlocks.Number.Reading

/-!
# Numbers in JSON text

A number is an integer when it has neither a point nor an exponent and fits into
64 bits; the integer minus zero and all other numbers are doubles. Doubles are
scaled rather than rounded exactly: the digits are collected into a 64-bit
significand while they fit, and the significand, rounded to a double, is
multiplied or divided once by a power of ten.
-/

namespace MessageBlocks.Json

/-- The parts of a number as written. -/
structure Numeral where
  negative : Bool
  wholeDigits : List Char
  fraction : Option (List Char)
  exponent : Option (Bool × List Char)
  deriving DecidableEq, Repr

/-- The fractional digits after a point, of which there must be one at least. -/
def readFraction? : List Char → Option (Option (List Char) × List Char)
  | '.' :: rest =>
      let (digits, rest) := Number.spanDigits rest
      if digits.isEmpty then none else some (some digits, rest)
  | text => some (none, text)

/-- The exponent after its mark: whether it is negative, and its digits. -/
def readExponent? : List Char → Option (Option (Bool × List Char) × List Char)
  | [] => some (none, [])
  | mark :: rest =>
      if mark == 'e' || mark == 'E' then
        let (negative, rest) := Number.spanSign rest
        let (digits, rest) := Number.spanDigits rest
        if digits.isEmpty then none else some (some (negative, digits), rest)
      else some (none, mark :: rest)

/-- The number at the start of a text. A leading zero stands alone. -/
def Numeral.read? (text : List Char) : Option (Numeral × List Char) := do
  let (negative, text) :=
    match text with
    | '-' :: rest => (true, rest)
    | _ => (false, text)
  let (wholeDigits, text) := Number.spanDigits text
  if wholeDigits.isEmpty || (wholeDigits.head? == some '0' && wholeDigits.length != 1) then none
  let (fraction, text) ← readFraction? text
  let (exponent, text) ← readExponent? text
  return (⟨negative, wholeDigits, fraction, exponent⟩, text)

/-- Collect digits into a significand while it stays below `2 ^ 64`. The answer
holds the digits left over. -/
def collectDigits (significand : Nat) : List Char → Nat × List Char
  | [] => (significand, [])
  | digit :: rest =>
      let next := 10 * significand + (digit.toNat - '0'.toNat)
      if next < Number.powerOfTwo 64 then collectDigits next rest else (significand, digit :: rest)

def tenTo (exponent : Nat) : Float :=
  Float.ofScientific 1 false exponent

/-- Scale a double by a power of ten, where `none` means that the result is too
large. Dividing by `10 ^ 308` thrice leaves nothing of a significand. -/
def scale? (steps : Nat) (value : Float) (exponent : Int) : Option Float :=
  if exponent.natAbs ≤ 308 then
    if 0 ≤ exponent then
      let scaled := value * tenTo exponent.natAbs
      if scaled.isInf then none else some scaled
    else some (value / tenTo exponent.natAbs)
  else if value == 0 then some value
  else if 0 ≤ exponent then none
  else
    match steps with
    | 0 => some 0
    | steps + 1 => scale? steps (value / tenTo 308) (exponent + 308)

namespace Numeral

/-- The magnitude of a number that is not an integer. -/
def magnitude? (numeral : Numeral) : Option Float :=
  let (significand, dropped) := collectDigits 0 numeral.wholeDigits
  let fraction := numeral.fraction.getD []
  let (significand, ignored) := collectDigits significand fraction
  let shift : Int := dropped.length - (fraction.length - ignored.length : Nat)
  match numeral.exponent with
  | none => scale? 3 (Float.ofNat significand) shift
  | some (negative, digits) =>
      let power := Number.ofDigits digits
      if power < Number.powerOfTwo 31 then
        let exponent : Int := if negative then shift - power else shift + power
        scale? 3 (Float.ofNat significand) exponent
      else if significand != 0 && !negative then none
      else some 0

/-- The double that a number stands for, `unreadable` if it is too large. -/
def float (numeral : Numeral) : Json :=
  match numeral.magnitude? with
  | some magnitude => .float (if numeral.negative then -magnitude else magnitude)
  | none => .unreadable

def value (numeral : Numeral) : Json :=
  match numeral.fraction, numeral.exponent with
  | none, none =>
      let magnitude := Number.ofDigits numeral.wholeDigits
      if numeral.negative then
        if 0 < magnitude ∧ magnitude ≤ Number.powerOfTwo 63 then .integer (-(magnitude : Int))
        else numeral.float
      else if magnitude < Number.powerOfTwo 64 then .integer magnitude
      else numeral.float
  | _, _ => numeral.float

end Numeral

end MessageBlocks.Json
