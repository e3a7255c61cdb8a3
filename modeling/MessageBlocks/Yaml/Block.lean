import MessageBlocks.Yaml.Letter

/-!
# Block scalars of YAML

A block scalar is a run of lines below its header. A literal one keeps its line
ends; a folded one joins neighbouring lines with a space unless one of them starts
with a blank or a Unicode separator is between them. The line ends after the last
line are dropped, clipped to one, or kept.
-/

namespace MessageBlocks.Yaml

/-- What becomes of the line ends after the last line. -/
inductive Chomping where
  | strip
  | clip
  | keep
  deriving DecidableEq, Repr

/-- The header of a block scalar: its chomping and its own depth, if given. -/
structure BlockHeader where
  chomping : Chomping
  depth : Option Nat
  deriving DecidableEq, Repr

namespace BlockHeader

def chomping? : Char → Option Chomping
  | '-' => some .strip
  | '+' => some .keep
  | _ => none

def depth? (digit : Char) : Option Nat :=
  if digit.isDigit && digit != '0' then some (digit.toNat - '0'.toNat) else none

/-- Read the sign and the digit of a header, each at most once and in any order. -/
def read (header : BlockHeader) : List Letter → BlockHeader × List Letter
  | [] => (header, [])
  | letter :: rest =>
      match chomping? letter.char, depth? letter.char with
      | some chomping, _ =>
          if header.chomping = .clip then read { header with chomping := chomping } rest
          else (header, letter :: rest)
      | none, some depth =>
          if header.depth = none then read { header with depth := some depth } rest
          else (header, letter :: rest)
      | none, none => (header, letter :: rest)

end BlockHeader

namespace BlockScalar

/-- The depth of the first line with text, or of a line of spaces above it that is
deeper. A tab among the spaces is refused. -/
def depthOfLines? (deepest : Nat) : List Letter → Option Nat
  | [] => some deepest
  | letter :: rest =>
      let deepest := max deepest letter.place.column
      if letter.char = ' ' || isBreak letter.char then depthOfLines? deepest rest
      else if letter.char = '\t' then none
      else some deepest

/-- The last line that has been read: whether it starts with a blank, and its end. -/
structure LastLine where
  blank : Bool
  ending : Option Char
  deriving DecidableEq, Repr

/-- What stands in front of a line after the empty lines with the line ends `breaks`. -/
def separator (folded blank : Bool) (breaks : List Char) : Option LastLine → List Char
  | none => breaks
  | some last =>
      if last.ending = some '\n' ∧ folded ∧ !last.blank ∧ !blank then
        if breaks.isEmpty then [' '] else breaks
      else last.ending.toList ++ breaks

/-- What is left of the line ends after the last line. -/
def chomp (chomping : Chomping) (breaks : List Char) (last : Option LastLine) : List Char :=
  let ending := (last.bind LastLine.ending).toList
  match chomping with
  | .strip => []
  | .clip => ending
  | .keep => ending ++ breaks

/-- The content of a scalar of a given depth, and the text after it. `inLine` says that
the last line is being read, and `breaks` are the line ends after its own, the last one
first. -/
def readLines? (header : BlockHeader) (folded : Bool) (depth : Nat) (inLine : Bool)
    (breaks : List Char) (last : Option LastLine) :
    List Letter → Option (List Char × List Letter)
  | [] => some (chomp header.chomping breaks.reverse last, [])
  | letter :: rest =>
      if isBreak letter.char then
        if inLine then
          readLines? header folded depth false []
            (last.map fun line => { line with ending := some letter.char }) rest
        else readLines? header folded depth false (letter.char :: breaks) last rest
      else if inLine then do
        let (content, rest) ← readLines? header folded depth true [] last rest
        return (letter.char :: content, rest)
      else if letter.place.column < depth then
        if letter.char = ' ' then readLines? header folded depth false breaks last rest
        else if letter.char = '\t' then none
        else some (chomp header.chomping breaks.reverse last, letter :: rest)
      else do
        let blank := isBlank letter.char
        let (content, rest) ← readLines? header folded depth true [] (some ⟨blank, none⟩) rest
        return (separator folded blank breaks.reverse last ++ letter.char :: content, rest)

/-- The content of the block scalar after its first sign, and the text after it. Its
lines are at least `least` deep unless its header says so. -/
def read? (folded : Bool) (least : Nat) (text : List Letter) :
    Option (List Char × List Letter) := do
  let (header, rest) := BlockHeader.read ⟨.clip, none⟩ text
  let lines := (← endOfLine? rest).drop 1
  let depth ←
    match header.depth with
    | some depth => pure (least - 1 + depth)
    | none => (depthOfLines? 0 lines).map fun depth => max depth (max least 1)
  readLines? header folded depth false [] none lines

end BlockScalar

end MessageBlocks.Yaml
