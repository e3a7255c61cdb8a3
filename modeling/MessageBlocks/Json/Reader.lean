import MessageBlocks.Json.Number

/-!
# Reading JSON text

The reader takes exactly one value with optional spacing around it. Depth is
counted in open brackets; a value nested deeper than the limit is still checked
for its form and then becomes `unreadable`, as does a string with half of a
surrogate pair.
-/

namespace MessageBlocks.Json

def isSpace (character : Char) : Bool :=
  character == ' ' || character == '\t' || character == '\n' || character == '\r'

/-- Skip the spacing at the start of a text. -/
def skipSpace (text : List Char) : List Char :=
  text.dropWhile isSpace

def hexDigit? (character : Char) : Option Nat :=
  if character.isDigit then some (character.toNat - '0'.toNat)
  else if 'a' ≤ character ∧ character ≤ 'f' then some (character.toNat - 'a'.toNat + 10)
  else if 'A' ≤ character ∧ character ≤ 'F' then some (character.toNat - 'A'.toNat + 10)
  else none

def ofHexDigits? (digits : List Char) : Option Nat :=
  digits.foldlM (fun number digit => (hexDigit? digit).map (16 * number + ·)) 0

def shortEscape? : Char → Option Char
  | '"' => some '"'
  | '\\' => some '\\'
  | '/' => some '/'
  | 'b' => some '\x08'
  | 'f' => some '\x0c'
  | 'n' => some '\n'
  | 'r' => some '\r'
  | 't' => some '\t'
  | _ => none

/-- The code units of a string up to its closing quote, and the text after it.
An escape with four hexadecimal digits may be half of a surrogate pair. -/
def readUnits? : List Char → Option (List Nat × List Char)
  | [] => none
  | '"' :: rest => some ([], rest)
  | '\\' :: 'u' :: first :: second :: third :: fourth :: rest => do
      let unit ← ofHexDigits? [first, second, third, fourth]
      let (units, rest) ← readUnits? rest
      return (unit :: units, rest)
  | '\\' :: letter :: rest => do
      let character ← shortEscape? letter
      let (units, rest) ← readUnits? rest
      return (character.toNat :: units, rest)
  | character :: rest => do
      if character.toNat < 0x20 || character == '\\' then none
      let (units, rest) ← readUnits? rest
      return (character.toNat :: units, rest)

/-- Whether a code unit is the first half of a surrogate pair. -/
def isLeading (unit : Nat) : Bool :=
  0xD800 ≤ unit && unit < 0xDC00

/-- Whether a code unit is the second half of a surrogate pair. -/
def isTrailing (unit : Nat) : Bool :=
  0xDC00 ≤ unit && unit < 0xE000

/-- The characters of code units, `none` if half of a pair stands alone. -/
def ofUnits? : List Nat → Option (List Char)
  | [] => some []
  | [unit] => if isLeading unit || isTrailing unit then none else some [Char.ofNat unit]
  | first :: second :: rest =>
      if isLeading first then
        if isTrailing second then
          (ofUnits? rest).map
            (Char.ofNat (0x10000 + 0x400 * (first - 0xD800) + (second - 0xDC00)) :: ·)
        else none
      else if isTrailing first then none
      else (ofUnits? (second :: rest)).map (Char.ofNat first :: ·)

/-- The string after an opening quote, `none` inside if it has half of a
surrogate pair. -/
def readString? (text : List Char) : Option (Option String × List Char) :=
  (readUnits? text).map fun (units, rest) => ((ofUnits? units).map String.ofList, rest)

/-- A container whose bracket may be opened only if there is room for it. -/
def bracketed (room : Nat) (value : Json) : Json :=
  if room = 0 then .unreadable else value

/-- An object, unreadable if one of its names is. -/
def ofNamed (members : List (Option String × Json)) : Json :=
  if members.all (·.1.isSome) then
    .object (members.filterMap fun member => member.1.map (·, member.2))
  else .unreadable

mutual

/-- The value at the start of a text. Every step takes one unit of fuel, and
twice the length of the text is enough. -/
def readValue? : Nat → Nat → List Char → Option (Json × List Char)
  | 0, _, _ => none
  | fuel + 1, room, text =>
      match skipSpace text with
      | 'n' :: 'u' :: 'l' :: 'l' :: rest => some (.null, rest)
      | 't' :: 'r' :: 'u' :: 'e' :: rest => some (.bool true, rest)
      | 'f' :: 'a' :: 'l' :: 's' :: 'e' :: rest => some (.bool false, rest)
      | '"' :: rest =>
          (readString? rest).map fun (content?, rest) =>
            (match content? with
              | some content => .string content
              | none => .unreadable, rest)
      | '[' :: rest =>
          match skipSpace rest with
          | ']' :: rest => some (bracketed room (.array []), rest)
          | rest =>
              (readItems? fuel (room - 1) rest).map fun (items, rest) =>
                (bracketed room (.array items), rest)
      | '\x7b' :: rest =>
          match skipSpace rest with
          | '\x7d' :: rest => some (bracketed room (.object []), rest)
          | rest =>
              (readMembers? fuel (room - 1) rest).map fun (members, rest) =>
                (bracketed room (ofNamed members), rest)
      | rest => (Numeral.read? rest).map fun (numeral, rest) => (numeral.value, rest)

/-- The items of an array up to its closing bracket. -/
def readItems? : Nat → Nat → List Char → Option (List Json × List Char)
  | 0, _, _ => none
  | fuel + 1, room, text => do
      let (item, text) ← readValue? fuel room text
      match skipSpace text with
      | ',' :: rest =>
          let (items, rest) ← readItems? fuel room rest
          return (item :: items, rest)
      | ']' :: rest => return ([item], rest)
      | _ => none

/-- The members of an object up to its closing brace. -/
def readMembers? : Nat → Nat → List Char → Option (List (Option String × Json) × List Char)
  | 0, _, _ => none
  | fuel + 1, room, text =>
      match skipSpace text with
      | '"' :: rest => do
          let (name, rest) ← readString? rest
          match skipSpace rest with
          | ':' :: rest =>
              let (value, rest) ← readValue? fuel room rest
              match skipSpace rest with
              | ',' :: rest =>
                  let (members, rest) ← readMembers? fuel room rest
                  return ((name, value) :: members, rest)
              | '\x7d' :: rest => return ([(name, value)], rest)
              | _ => none
          | _ => none
      | _ => none

end

def depthLimit : Nat :=
  127

/-- Read a document whose brackets are nested at most `limit` deep. -/
def readWithin? (limit : Nat) (text : List Char) : Option Json :=
  match readValue? (2 * text.length + 2) limit text with
  | some (value, rest) => if (skipSpace rest).isEmpty then some value else none
  | none => none

def read? (text : String) : Option Json :=
  readWithin? depthLimit text.toList

end MessageBlocks.Json
