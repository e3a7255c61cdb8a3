/-!
# The tokens of YAML

A document is a list of tokens. Those of block collections come from the depth of
lines, and those of flow collections from brackets and commas.
-/

namespace MessageBlocks.Yaml

/-- How a scalar is written. -/
inductive Style where
  | plain
  | quoted
  | literal
  | folded
  deriving DecidableEq, Repr

/-- A token. The parts of a tag are the octets that its escapes stand for, each as one
character, and a tag that is written in full has no handle. -/
inductive Token where
  | version (major minor : Nat)
  | tagHandle (handle start : List Char)
  | documentStart
  | documentEnd
  | blockSequence
  | blockMapping
  | blockEnd
  | flowSequence
  | flowSequenceEnd
  | flowMapping
  | flowMappingEnd
  | item
  | comma
  | key
  | value
  | alias (name : List Char)
  | anchor (name : List Char)
  | tag (handle suffix : List Char)
  | scalar (style : Style) (text : List Char)
  deriving DecidableEq, Repr

end MessageBlocks.Yaml
