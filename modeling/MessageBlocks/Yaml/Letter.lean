/-!
# The letters of a YAML text

A text is read as its characters with their places. A line ends at a line feed, a
carriage return, both together or a next line character, which are all one line
feed, or at one of the two Unicode separators, which stay what they are. The blanks
within a line are spaces and tabs.
-/

namespace MessageBlocks.Yaml

/-- A place in a text: the characters in front of it, the lines above it, and the
characters in front of it in its line. -/
structure Place where
  index : Nat
  line : Nat
  column : Nat
  deriving DecidableEq, Repr

namespace Place

/-- The start of a text. -/
def start : Place :=
  ⟨0, 0, 0⟩

def next (place : Place) : Place :=
  ⟨place.index + 1, place.line, place.column + 1⟩

/-- The place after the end of a line, which has one or two characters. -/
def nextLine (place : Place) (width : Nat) : Place :=
  ⟨place.index + width, place.line + 1, 0⟩

end Place

/-- A character at its place. -/
structure Letter where
  char : Char
  place : Place
  deriving DecidableEq, Repr

/-- Whether a character is a blank within a line. -/
def isBlank (character : Char) : Bool :=
  character == ' ' || character == '\t'

def isBreak (character : Char) : Bool :=
  character == '\n' || character == '\r' || character == '\u0085' || character == '\u2028' ||
    character == '\u2029'

/-- Whether a line end is kept as it is when lines are joined. -/
def isSeparator (character : Char) : Bool :=
  character == '\u2028' || character == '\u2029'

def isPrintable (character : Char) : Bool :=
  let code := character.toNat
  code == 0x09 || code == 0x0A || code == 0x0D || (0x20 ≤ code && code ≤ 0x7E) ||
    code == 0x85 || (0xA0 ≤ code && code ≤ 0xFFFD) || 0x10000 ≤ code

/-- The letters of a text that starts at a place. -/
def lettersFrom (place : Place) : List Char → List Letter
  | [] => []
  | '\r' :: '\n' :: rest => ⟨'\n', place⟩ :: lettersFrom (place.nextLine 2) rest
  | character :: rest =>
      if isSeparator character then ⟨character, place⟩ :: lettersFrom (place.nextLine 1) rest
      else if isBreak character then ⟨'\n', place⟩ :: lettersFrom (place.nextLine 1) rest
      else ⟨character, place⟩ :: lettersFrom place.next rest

/-- The letters of a text. A byte order mark in front is left out, but the others keep
their places. -/
def letters (text : List Char) : List Letter :=
  match lettersFrom .start text with
  | ⟨'\ufeff', _⟩ :: rest => rest
  | letters => letters

/-- Whether a text starts with a blank, with the end of a line or not at all. -/
def startsBlank : List Letter → Bool
  | [] => true
  | letter :: _ => isBlank letter.char || isBreak letter.char

/-- Whether one of the two marks around documents starts at a text: three dashes or
three periods at the start of a line and a blank after them. -/
def isDocumentMark : List Letter → Bool
  | first :: second :: third :: rest =>
      first.place.column == 0 && first.char == second.char && second.char == third.char &&
        (first.char == '-' || first.char == '.') && startsBlank rest
  | _ => false

def afterBlanks (text : List Letter) : List Letter :=
  text.dropWhile fun letter => isBlank letter.char

/-- The characters at the start of a text that pass a test, and the text after them. -/
def spanLetters (test : Char → Bool) (text : List Letter) : List Char × List Letter :=
  ((text.takeWhile fun letter => test letter.char).map Letter.char,
    text.dropWhile fun letter => test letter.char)

/-- The text from the end of its first line on, if nothing but blanks and a comment is
in front of that. -/
def endOfLine? (text : List Letter) : Option (List Letter) :=
  let rest := afterBlanks text
  let comment := rest.head?.any fun letter => letter.char == '#'
  let rest := if comment then rest.dropWhile fun letter => !isBreak letter.char else rest
  if rest.head?.all fun letter => isBreak letter.char then some rest else none

end MessageBlocks.Yaml
