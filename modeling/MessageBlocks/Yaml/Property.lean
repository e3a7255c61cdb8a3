import MessageBlocks.Json.Reader
import MessageBlocks.Number.Reading
import MessageBlocks.Yaml.Plain
import MessageBlocks.Yaml.Token

/-!
# Anchors, tags and directives of YAML

An anchor names a value and an alias refers to a name. A tag is written in full
between angle brackets, or as a handle with a suffix. The directives in front of a
document give its version and say what handles stand for.
-/

namespace MessageBlocks.Yaml

/-- Whether a character may be part of a name. -/
def isNamePart (character : Char) : Bool :=
  character.isAlphanum || character == '-' || character == '_'

/-- Whether a name may end in front of a text. -/
def endsName (text : List Letter) : Bool :=
  startsBlank text ||
    text.head?.any fun letter => ['?', ':', ',', ']', '\x7d', '%', '@', '\x60'].contains letter.char

/-- The name after the sign of an anchor or an alias, and the text after it. -/
def readName? (text : List Letter) : Option (List Char × List Letter) :=
  let (name, rest) := spanLetters isNamePart text
  if name.isEmpty || !endsName rest then none else some (name, rest)

namespace Tag

/-- Whether a character may be part of a tag. Three signs of flow collections may only
where the tag is marked off from what follows it. -/
def isPart (markedOff : Bool) (character : Char) : Bool :=
  isNamePart character || ";/?:@&=+$.!~*'()".toList.contains character ||
    (markedOff && (character == ',' || character == '[' || character == ']'))

/-- The number of octets that follow the first octet of a character. -/
def following? (octet : Nat) : Option Nat :=
  if octet < 0x80 then some 0
  else if 0xC0 ≤ octet ∧ octet < 0xE0 then some 1
  else if 0xE0 ≤ octet ∧ octet < 0xF0 then some 2
  else if 0xF0 ≤ octet ∧ octet < 0xF8 then some 3
  else none

/-- The number of octets that follow an octet of which `awaited` were expected to, this
one included. -/
def awaitedAfter? (awaited octet : Nat) : Option Nat :=
  if awaited = 0 then following? octet
  else if 0x80 ≤ octet ∧ octet < 0xC0 then some (awaited - 1)
  else none

/-- The part of a tag at the start of a text, and the text after it. An escape is a
percent sign and an octet in two hexadecimal digits, and the octets of one character
stand together. -/
def readPart? (markedOff : Bool) (awaited : Nat) :
    List Letter → Option (List Char × List Letter)
  | ⟨'%', _⟩ :: high :: low :: rest => do
      let octet ← Json.ofHexDigits? [high.char, low.char]
      let (part, rest) ← readPart? markedOff (← awaitedAfter? awaited octet) rest
      return (Char.ofNat octet :: part, rest)
  | letter :: rest =>
      if awaited ≠ 0 || letter.char == '%' then none
      else if isPart markedOff letter.char then do
        let (part, rest) ← readPart? markedOff 0 rest
        return (letter.char :: part, rest)
      else some ([], letter :: rest)
  | [] => if awaited = 0 then some ([], []) else none

/-- A part of a tag up to its first null. -/
def untilNull (part : List Char) : List Char :=
  part.takeWhile (· != '\x00')

/-- The part of a tag at the start of a text, which must not be empty, and the text
after it. -/
def readWholePart? (markedOff : Bool) (text : List Letter) :
    Option (List Char × List Letter) := do
  let (part, rest) ← readPart? markedOff 0 text
  if part.isEmpty then none else some (untilNull part, rest)

/-- The tag after its first sign, and the text after it. -/
def readToken? : List Letter → Option (Token × List Letter)
  | ⟨'<', _⟩ :: rest => do
      let (suffix, rest) ← readWholePart? true rest
      match rest with
      | ⟨'>', _⟩ :: rest => some (.tag [] suffix, rest)
      | _ => none
  | text => do
      let (name, rest) := spanLetters isNamePart text
      match rest with
      | ⟨'!', _⟩ :: rest =>
          let (suffix, rest) ← readWholePart? false rest
          return (.tag ('!' :: name ++ ['!']) suffix, rest)
      | rest =>
          let (part, rest) ← readPart? false 0 rest
          let suffix := untilNull (name ++ part)
          return (if suffix.isEmpty then .tag [] ['!'] else .tag ['!'] suffix, rest)

/-- The tag after its first sign, and the text after it, which starts with a blank or
within a flow collection with a comma. -/
def read? (inFlow : Bool) (text : List Letter) : Option (Token × List Letter) := do
  let (token, rest) ← readToken? text
  let beforeComma := inFlow && rest.head?.any fun letter => letter.char == ','
  if startsBlank rest || beforeComma then some (token, rest) else none

end Tag

namespace Directive

/-- A number of at most nine digits at the start of a text, and the text after it. -/
def readNumber? (text : List Letter) : Option (Nat × List Letter) :=
  let (digits, rest) := spanLetters Char.isDigit text
  if digits.isEmpty || 9 < digits.length then none else some (Number.ofDigits digits, rest)

/-- The version after the name of its directive, and the text after it. -/
def readVersion? (text : List Letter) : Option (Token × List Letter) := do
  let (major, rest) ← readNumber? (afterBlanks text)
  match rest with
  | ⟨'.', _⟩ :: rest =>
      let (minor, rest) ← readNumber? rest
      return (.version major minor, rest)
  | _ => none

/-- The handle of a tag, and the text after it. -/
def readHandle? : List Letter → Option (List Char × List Letter)
  | ⟨'!', _⟩ :: rest =>
      match spanLetters isNamePart rest with
      | (name, ⟨'!', _⟩ :: rest) => some ('!' :: name ++ ['!'], rest)
      | ([], rest) => some (['!'], rest)
      | _ => none
  | _ => none

/-- The handle and what it stands for after the name of their directive, and the text
after them. -/
def readTagHandle? (text : List Letter) : Option (Token × List Letter) := do
  let (handle, rest) ← readHandle? (afterBlanks text)
  if rest.head?.any fun letter => isBlank letter.char then
    let (start, rest) ← Tag.readWholePart? true (afterBlanks rest)
    if startsBlank rest then some (.tagHandle handle start, rest) else none
  else none

/-- The directive after its first sign, and the text after its line. -/
def read? (text : List Letter) : Option (Token × List Letter) := do
  let (name, rest) := spanLetters isNamePart text
  let (token, rest) ←
    match String.ofList name with
    | "YAML" => if startsBlank rest then readVersion? rest else none
    | "TAG" => if startsBlank rest then readTagHandle? rest else none
    | _ => none
  return (token, (← endOfLine? rest).drop 1)

end Directive

end MessageBlocks.Yaml
