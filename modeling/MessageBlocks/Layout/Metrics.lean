import MessageBlocks.Json.Reader
import MessageBlocks.Layout.Width
import MessageBlocks.Number.Text
import MessageBlocks.Text.Quoted

/-!
# Font metrics

The metrics of a font are the widths of single letters and of the space glyphs
from which indents are made. A document of metrics is a JSON record of two
objects; its widths have to be finite, those of letters not negative and those
of space glyphs positive.
-/

namespace MessageBlocks

/-- The widths of letters and of space glyphs, each sorted by its key. -/
structure Metrics (W : Type) where
  letters : List (Char × W)
  spaces : List (String × W)
  deriving DecidableEq, Repr

/-- Why metrics are refused. -/
inductive Metrics.Defect (W : Type) where
  | letterWidth (letter : Char) (width : W)
  | emptyGlyph
  | glyphWidth (glyph : String) (width : W)
  deriving DecidableEq, Repr

namespace Metrics

variable {W : Type} [Width W]

def isLetterWidth (width : W) : Bool :=
  Width.isFinite width && !Width.below width Width.zero

def isGlyphWidth (width : W) : Bool :=
  Width.isFinite width && Width.below Width.zero width

/-- What is wrong with the width of a letter. -/
def letterDefect? (entry : Char × W) : Option (Defect W) :=
  if isLetterWidth entry.2 then none else some (.letterWidth entry.1 entry.2)

def glyphDefect? (entry : String × W) : Option (Defect W) :=
  if entry.1.isEmpty then some .emptyGlyph
  else if isGlyphWidth entry.2 then none
  else some (.glyphWidth entry.1 entry.2)

/-- The first thing wrong with metrics, letters before space glyphs. -/
def defect? (metrics : Metrics W) : Option (Defect W) :=
  (metrics.letters.findSome? letterDefect?).or (metrics.spaces.findSome? glyphDefect?)

def isValid (metrics : Metrics W) : Bool :=
  metrics.defect?.isNone

def Defect.message : Defect Float → String
  | .letterWidth letter width =>
      "letter " ++ String.ofList (Text.quoteChar letter) ++ " has invalid width " ++
        String.ofList (Number.floatText width)
  | .emptyGlyph => "space glyph cannot be empty"
  | .glyphWidth glyph width =>
      "space glyph " ++ String.ofList (Text.quoteString glyph.toList) ++
        " has invalid width " ++ String.ofList (Number.floatText width)

def fieldNames : List String :=
  ["letters", "spaces"]

/-- The widths in an object, by the keys that its names stand for. -/
def widths? {κ : Type} [LT κ] [DecidableLT κ] [DecidableEq κ] (key? : String → Option κ) :
    Option Json → Option (List (κ × Float))
  | none => some []
  | some (.object members) =>
      (members.mapM fun (member : String × Json) => do
        return (← key? member.1, ← member.2.float?)).map Keyed.ofList
  | some _ => none

def letter? (name : String) : Option Char :=
  match name.toList with
  | [letter] => some letter
  | _ => none

def ofJson? (document : Json) : Option (Metrics Float) := do
  let [letters, spaces] ← document.record? fieldNames | none
  return ⟨← widths? letter? letters, ← widths? some spaces⟩

/-- Why a document of metrics cannot be loaded. -/
inductive Failure where
  | malformed
  | invalid (defect : Defect Float)
  deriving DecidableEq, Repr

def Failure.message : Failure → String
  | .malformed => "Failed to parse font metrics JSON"
  | .invalid defect => defect.message

def read (document : String) : Except Failure (Metrics Float) :=
  match (Json.read? document).bind ofJson? with
  | none => .error .malformed
  | some metrics =>
      match metrics.defect? with
      | some defect => .error (.invalid defect)
      | none => .ok metrics

end Metrics

end MessageBlocks
