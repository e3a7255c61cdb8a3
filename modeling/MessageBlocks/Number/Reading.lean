import MessageBlocks.Number.Binary

/-!
# Doubles read from decimal text

A decimal number in text is an optional sign and either digits with an optional
point and an optional power of ten, or one of the words `inf`, `infinity` and
`nan` in any case. It stands for the double nearest to its exact value.
-/

namespace MessageBlocks.Number

def ofDigits (text : List Char) : Nat :=
  text.foldl (fun number digit => 10 * number + (digit.toNat - '0'.toNat)) 0

/-- The leading decimal digits of a text and what follows them. -/
def spanDigits (text : List Char) : List Char × List Char :=
  (text.takeWhile Char.isDigit, text.dropWhile Char.isDigit)

/-- Split off a sign. The answer says whether it was a minus. -/
def spanSign : List Char → Bool × List Char
  | '-' :: rest => (true, rest)
  | '+' :: rest => (false, rest)
  | text => (false, text)

/-- The double nearest to `coefficient * 10 ^ exponent`. Beyond the range of
doubles this is infinity or zero, whatever the digits are. -/
def nearestFloat (coefficient : Nat) (exponent : Int) : Float :=
  let magnitude := (Nat.toDigits 10 coefficient).length + exponent
  if coefficient = 0 ∨ magnitude < -330 then 0
  else if 320 < magnitude then 1 / 0
  else Float.ofScientific coefficient (exponent < 0) exponent.natAbs

/-- The power of ten at the end of a number, `none` if it is malformed. -/
def readExponent? : List Char → Option Int
  | [] => some 0
  | mark :: rest =>
      if mark == 'e' || mark == 'E' then
        let (negative, rest) := spanSign rest
        let (power, rest) := spanDigits rest
        if power.isEmpty || !rest.isEmpty then none
        else some (if negative then -(ofDigits power : Int) else ofDigits power)
      else none

/-- The double that digits, point and exponent stand for. -/
def readMagnitude? (text : List Char) : Option Float :=
  let (wholeDigits, rest) := spanDigits text
  let (fraction, rest) :=
    match rest with
    | '.' :: rest => spanDigits rest
    | rest => ([], rest)
  if wholeDigits.isEmpty && fraction.isEmpty then none
  else
    (readExponent? rest).map fun exponent =>
      nearestFloat (ofDigits (wholeDigits ++ fraction)) (exponent - fraction.length)

def readFloat? (text : List Char) : Option Float :=
  let (negative, rest) := spanSign text
  let magnitude? :=
    match String.ofList (rest.map Char.toLower) with
    | "inf" | "infinity" => some (1 / 0)
    | "nan" => some (0 / 0)
    | _ => readMagnitude? rest
  magnitude?.map fun magnitude => if negative then -magnitude else magnitude

end MessageBlocks.Number
