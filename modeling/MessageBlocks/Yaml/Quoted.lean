import MessageBlocks.Json.Reader
import MessageBlocks.Yaml.Letter

/-!
# Quoted scalars of YAML

A quoted scalar may run over several lines, none of which is a document mark. The
blanks around a line end are not part of it, one line feed is a space, and of more
the first is dropped; a Unicode separator stays. Within single quotes only the quote
is special and is written twice; within double quotes a backslash opens an escape,
and in front of a line end it joins the lines.
-/

namespace MessageBlocks.Yaml

/-- What has been read between two visible characters of a scalar: blanks within a
line, a line end with more line ends after it, or the line ends after an escaped one.
Blanks and line ends are kept with the last one first. -/
inductive Gap where
  | blanks (text : List Char)
  | broken (first : Char) (more : List Char)
  | joined (breaks : List Char)
  deriving DecidableEq, Repr

namespace Gap

def empty : Gap :=
  blanks []

def isEmpty (gap : Gap) : Bool :=
  gap == empty

def isBroken : Gap → Bool
  | blanks _ => false
  | _ => true

/-- A gap with one more blank. Blanks at a line end count for nothing. -/
def addBlank (blank : Char) : Gap → Gap
  | blanks text => blanks (blank :: text)
  | gap => gap

def addBreak (lineEnd : Char) : Gap → Gap
  | blanks _ => broken lineEnd []
  | broken first more => broken first (lineEnd :: more)
  | joined breaks => joined (lineEnd :: breaks)

def fold (first : Char) (more : List Char) : List Char :=
  if first ≠ '\n' then first :: more
  else if more.isEmpty then [' ']
  else more

def text : Gap → List Char
  | blanks content => content.reverse
  | broken first more => fold first more.reverse
  | joined breaks => breaks.reverse

end Gap

/-- The content of a scalar up to a closing single quote, and the text after it. -/
def readSingle? (gap : Gap) : List Letter → Option (List Char × List Letter)
  | [] => none
  | ⟨'\'', _⟩ :: ⟨'\'', _⟩ :: rest => do
      let (content, rest) ← readSingle? .empty rest
      return (gap.text ++ '\'' :: content, rest)
  | ⟨'\'', _⟩ :: rest => some (gap.text, rest)
  | letter :: rest =>
      if isBreak letter.char then readSingle? (gap.addBreak letter.char) rest
      else if isBlank letter.char then readSingle? (gap.addBlank letter.char) rest
      else if isDocumentMark (letter :: rest) then none
      else do
        let (content, rest) ← readSingle? .empty rest
        return (gap.text ++ letter.char :: content, rest)

def shortEscape? : Char → Option Char
  | '0' => some '\x00'
  | 'a' => some '\x07'
  | 'b' => some '\x08'
  | 't' | '\t' => some '\t'
  | 'n' => some '\n'
  | 'v' => some '\x0b'
  | 'f' => some '\x0c'
  | 'r' => some '\r'
  | 'e' => some '\x1b'
  | ' ' => some ' '
  | '"' => some '"'
  | '/' => some '/'
  | '\\' => some '\\'
  | 'N' => some '\u0085'
  | '_' => some '\u00a0'
  | 'L' => some '\u2028'
  | 'P' => some '\u2029'
  | _ => none

def ofHexDigits? (digits : List Letter) : Option Char := do
  let code ← Json.ofHexDigits? (digits.map Letter.char)
  if code.isValidChar then some (Char.ofNat code) else none

/-- The content of a scalar up to a closing double quote, and the text after it. -/
def readDouble? (gap : Gap) : List Letter → Option (List Char × List Letter)
  | [] => none
  | ⟨'"', _⟩ :: rest => some (gap.text, rest)
  | ⟨'\\', _⟩ :: ⟨'x', _⟩ :: a :: b :: rest => do
      let character ← ofHexDigits? [a, b]
      let (content, rest) ← readDouble? .empty rest
      return (gap.text ++ character :: content, rest)
  | ⟨'\\', _⟩ :: ⟨'u', _⟩ :: a :: b :: c :: d :: rest => do
      let character ← ofHexDigits? [a, b, c, d]
      let (content, rest) ← readDouble? .empty rest
      return (gap.text ++ character :: content, rest)
  | ⟨'\\', _⟩ :: ⟨'U', _⟩ :: a :: b :: c :: d :: e :: f :: g :: h :: rest => do
      let character ← ofHexDigits? [a, b, c, d, e, f, g, h]
      let (content, rest) ← readDouble? .empty rest
      return (gap.text ++ character :: content, rest)
  | ⟨'\\', _⟩ :: letter :: rest =>
      if isBreak letter.char then do
        let (content, rest) ← readDouble? (.joined []) rest
        return (gap.text ++ content, rest)
      else do
        let character ← shortEscape? letter.char
        let (content, rest) ← readDouble? .empty rest
        return (gap.text ++ character :: content, rest)
  | letter :: rest =>
      if isBreak letter.char then readDouble? (gap.addBreak letter.char) rest
      else if isBlank letter.char then readDouble? (gap.addBlank letter.char) rest
      else if isDocumentMark (letter :: rest) then none
      else do
        let (content, rest) ← readDouble? .empty rest
        return (gap.text ++ letter.char :: content, rest)

end MessageBlocks.Yaml
