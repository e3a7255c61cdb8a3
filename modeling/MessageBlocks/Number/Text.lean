import MessageBlocks.Number.Shortest

/-!
# Numbers as text

Doubles are written with their shortest decimal, always in positional form and
without a fraction that is zero. Integers are written in decimal.
-/

namespace MessageBlocks.Number

def digits (number : Nat) : List Char :=
  Nat.toDigits 10 number

/-- An integer in decimal, with a sign if it is negative. -/
def intText (number : Int) : List Char :=
  match number with
  | .ofNat magnitude => digits magnitude
  | .negSucc magnitude => '-' :: digits (magnitude + 1)

/-- A decimal in positional notation, with the fraction left out if it is zero. -/
def Decimal.text (number : Decimal) : List Char :=
  if 0 ≤ number.exponent then
    digits (number.coefficient * powerOfTen number.exponent.toNat)
  else
    let places := (-number.exponent).toNat
    let fraction := digits (number.coefficient % powerOfTen places)
    let padded := List.replicate (places - fraction.length) '0' ++ fraction
    let kept := (padded.reverse.dropWhile (· == '0')).reverse
    digits (number.coefficient / powerOfTen places) ++ (if kept.isEmpty then [] else '.' :: kept)

/-- The text of a double: its shortest decimal, `NaN`, `inf`, and a sign if the
sign bit is set. -/
def floatText (value : Float) : List Char :=
  match Binary.ofFloat? value with
  | some number =>
      (if number.negative then ['-'] else []) ++
        (if number.mantissa = 0 then ['0'] else (shortest number).text)
  | none =>
      if value.isNaN then ['N', 'a', 'N']
      else (if isNegative value then ['-'] else []) ++ ['i', 'n', 'f']

end MessageBlocks.Number
