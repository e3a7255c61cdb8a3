import MessageBlocks.Text.Shapeless

/-!
# Quoted characters and strings

Messages show a character between apostrophes and a string between double
quotes. The quote in use, the backslash and four controls are written with a
backslash, and a character without a shape of its own by its number.
-/

namespace MessageBlocks.Text

/-- The written form of one character between quotes of the given kind. -/
def quotedChar (quote character : Char) : List Char :=
  if character = '\x00' then ['\\', '0']
  else if character = '\t' then ['\\', 't']
  else if character = '\r' then ['\\', 'r']
  else if character = '\n' then ['\\', 'n']
  else if character = '\\' ∨ character = quote then ['\\', character]
  else if isShapeless character then
    ['\\', 'u', '\x7b'] ++ Nat.toDigits 16 character.toNat ++ ['\x7d']
  else [character]

def quoteChar (character : Char) : List Char :=
  '\'' :: quotedChar '\'' character ++ ['\'']

def quoteString (text : List Char) : List Char :=
  '"' :: text.flatMap (quotedChar '"') ++ ['"']

end MessageBlocks.Text
