import MessageBlocks.Text.Blank

/-!
# Escapes, collapsed spacing and padding

The three characters that open or close control tokens are written as
entities, runs of spacing collapse to one space, and marks are put around the
part of a line between its outer spaces.
-/

namespace MessageBlocks.Text

/-- The written form of one character: an entity for `&`, `<` and `>`. -/
def escapeChar (character : Char) : List Char :=
  if character = '&' then ['&', 'a', 'm', 'p', ';']
  else if character = '<' then ['&', 'l', 't', ';']
  else if character = '>' then ['&', 'g', 't', ';']
  else [character]

/-- Write `&`, `<` and `>` as entities. -/
def escape (text : List Char) : List Char :=
  text.flatMap escapeChar

/-- The spacing characters that collapse: space, tab, line feed, carriage
return and form feed. -/
def isSpacing (character : Char) : Bool :=
  character == ' ' || character == '\t' || character == '\n' ||
    character == '\r' || character == '\x0c'

/-- Collapse runs of spacing, where `inRun` says that the text before ended in
spacing which has been written as one space already. -/
def collapseFrom : Bool → List Char → List Char
  | _, [] => []
  | inRun, character :: rest =>
      if isSpacing character then
        if inRun then collapseFrom true rest else ' ' :: collapseFrom true rest
      else character :: collapseFrom false rest

def collapse (text : List Char) : List Char :=
  collapseFrom false text

/-- The leading spaces of a text, its core, and the spaces after the core. -/
structure Padded where
  lead : List Char
  core : List Char
  tail : List Char
  deriving DecidableEq, Repr

/-- Split a text at its outer spaces. A text of spaces alone is all lead. -/
def padded (text : List Char) : Padded where
  lead := text.takeWhile (· == ' ')
  core := trimEndBy (· == ' ') (trimStartBy (· == ' ') text)
  tail := ((trimStartBy (· == ' ') text).reverse.takeWhile (· == ' ')).reverse

/-- The lines of a text: the pieces between its line feeds. -/
def lines (text : List Char) : List (List Char) :=
  text.splitOn '\n'

/-- Lines put together again, with a line feed between neighbours. -/
def unlines (lines : List (List Char)) : List Char :=
  ['\n'].intercalate lines

end MessageBlocks.Text
