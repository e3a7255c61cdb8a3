import MessageBlocks.Json.Basic
import MessageBlocks.Number.Text

/-!
# Writing JSON text

Values are written without spacing and members in their order. In strings only
the double quote, the backslash and the controls below the space are escaped.
-/

namespace MessageBlocks.Json

/-- The written form of one character of a string. -/
def escapedChar (character : Char) : List Char :=
  if character = '"' ∨ character = '\\' then ['\\', character]
  else if character = '\x08' then ['\\', 'b']
  else if character = '\x0c' then ['\\', 'f']
  else if character = '\n' then ['\\', 'n']
  else if character = '\r' then ['\\', 'r']
  else if character = '\t' then ['\\', 't']
  else if character.toNat < 0x20 then
    let hex := Nat.toDigits 16 character.toNat
    ['\\', 'u'] ++ List.replicate (4 - hex.length) '0' ++ hex
  else [character]

def stringText (value : String) : List Char :=
  '"' :: value.toList.flatMap escapedChar ++ ['"']

mutual

/-- The text of a value. Doubles without a value in JSON are written `null`. -/
def text : Json → List Char
  | .null | .unreadable => ['n', 'u', 'l', 'l']
  | .bool true => ['t', 'r', 'u', 'e']
  | .bool false => ['f', 'a', 'l', 's', 'e']
  | .integer value => Number.intText value
  | .float value => if value.isFinite then Number.floatText value else ['n', 'u', 'l', 'l']
  | .string value => stringText value
  | .array items => '[' :: [','].intercalate (itemTexts items) ++ [']']
  | .object members => '\x7b' :: [','].intercalate (memberTexts members) ++ ['\x7d']

def itemTexts : List Json → List (List Char)
  | [] => []
  | item :: rest => text item :: itemTexts rest

def memberTexts : List (String × Json) → List (List Char)
  | [] => []
  | (name, value) :: rest => (stringText name ++ ':' :: text value) :: memberTexts rest

end

def print (value : Json) : String :=
  String.ofList value.text

end MessageBlocks.Json
