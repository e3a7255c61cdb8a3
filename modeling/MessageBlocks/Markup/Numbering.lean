import MessageBlocks.Markup.Basic
import MessageBlocks.Number.Text

/-!
# List markers

An unordered item has a bullet that depends on its depth, an ordered one its
number with a period. Letters number by the bijective numeral system of base
twenty-six and roman numerals up to 3999; other numbers are decimal.
-/

namespace MessageBlocks

namespace Numbering

/-- The numbering style with a given name; decimal unless it is known. -/
def ofName : String → Numbering
  | "a" => .lowerAlpha
  | "A" => .upperAlpha
  | "i" => .lowerRoman
  | "I" => .upperRoman
  | _ => .decimal

/-- The letters of a number, from the last one. The first of the letters stands
for one, so a number is reduced by one before each division. -/
def alphaReversed (first : Char) (number : Nat) : List Char :=
  match number with
  | 0 => []
  | number + 1 =>
      Char.ofNat (first.toNat + number % 26) :: alphaReversed first (number / 26)
  termination_by number
  decreasing_by omega

/-- The letters of a number: `a`, …, `z`, `aa`, …. -/
def alpha (first : Char) (number : Nat) : List Char :=
  (alphaReversed first number).reverse

/-- The roman numerals from the greatest on, with the four and nine of each
decimal place. -/
def romanNumerals : List (Nat × List Char) :=
  [(1000, ['m']), (900, ['c', 'm']), (500, ['d']), (400, ['c', 'd']), (100, ['c']),
    (90, ['x', 'c']), (50, ['l']), (40, ['x', 'l']), (10, ['x']), (9, ['i', 'x']),
    (5, ['v']), (4, ['i', 'v']), (1, ['i'])]

/-- A number in the given numerals, each taken as often as it fits. -/
def romanFrom (number : Nat) : List (Nat × List Char) → List Char
  | [] => []
  | (value, numeral) :: rest =>
      (List.replicate (number / value) numeral).flatten ++ romanFrom (number % value) rest

def roman (number : Nat) : List Char :=
  romanFrom number romanNumerals

def romanMax : Nat :=
  3999

/-- The text of a positive number in a style. -/
def positiveText (numbering : Numbering) (number : Nat) : List Char :=
  match numbering with
  | .decimal => Number.digits number
  | .lowerAlpha => alpha 'a' number
  | .upperAlpha => alpha 'A' number
  | .lowerRoman => if romanMax < number then Number.digits number else roman number
  | .upperRoman =>
      if romanMax < number then Number.digits number else (roman number).map Char.toUpper

/-- The text of a number in a style. Numbers below one are decimal. -/
def text (numbering : Numbering) (number : Int64) : List Char :=
  if 0 < number.toInt then numbering.positiveText number.toInt.toNat
  else Number.intText number.toInt

end Numbering

/-- The bullet of an unordered list. Below the third depth the last one repeats. -/
def bullet : Nat → Char
  | 0 => '•'
  | 1 => '◦'
  | _ => '▪'

namespace ListKind

/-- The marker of an item with a given number. -/
def marker (kind : ListKind) (depth : Nat) (number : Int64) : List Char :=
  match kind with
  | .unordered => [bullet depth]
  | .ordered numbering _ => numbering.text number ++ ['.']

/-- The number of the first item. -/
def start : ListKind → Int64
  | .unordered => 1
  | .ordered _ start => start

end ListKind

namespace ListItem

/-- The number after another one. The greatest number repeats. -/
def nextNumber (number : Int64) : Int64 :=
  if number = Int64.maxValue then number else number + 1

/-- The numbers of the items of a list, where `number` is due for the first one
unless it has a number of its own. -/
def numbers (number : Int64) : List ListItem → List Int64
  | [] => []
  | item :: rest =>
      let own := item.number.getD number
      own :: numbers (nextNumber own) rest

end ListItem

end MessageBlocks
