import MessageBlocks.Layout.Glyphs

/-!
# The layout engine

An engine measures text and composes indents. The width of a text is the sum of
the widths of its characters, and a character without a width of its own counts
as a fallback. An indent of a given width takes as many as possible of the widest
space glyph, then of the next, and so on.
-/

namespace MessageBlocks

/-- Font metrics and the width of the characters that they do not list. -/
structure Engine (W : Type) where
  metrics : Metrics W
  fallback : W
  deriving DecidableEq, Repr

namespace Engine

variable {W : Type} [Width W]

omit [Width W] in
def letterWidth (engine : Engine W) (letter : Char) : W :=
  (Keyed.find? letter engine.metrics.letters).getD engine.fallback

def measure (engine : Engine W) (text : List Char) : W :=
  text.foldl (fun total letter => total + engine.letterWidth letter) Width.zero

def glyphs (engine : Engine W) : GlyphTable W :=
  .ofSpaces engine.metrics.spaces

/-- The count of each glyph of a table in an indent of a given width. -/
def counts (remaining : W) : GlyphTable W → List (Glyph W × Nat)
  | [] => []
  | glyph :: rest =>
      let count := Width.wholePart ((remaining + Width.slack) / glyph.width)
      let left := if count = 0 then remaining else remaining - Width.ofCount count * glyph.width
      (glyph, count) :: counts left rest

/-- The glyphs of an indent with their counts, from the widest on. An indent whose
width is not above zero has none. -/
def composition (engine : Engine W) (width : W) : List (Glyph W × Nat) :=
  if Width.below Width.zero width then counts width engine.glyphs else []

def indent (engine : Engine W) (width : W) : List Char :=
  (engine.composition width).flatMap fun part =>
    (List.replicate part.2 part.1.text.toList).flatten

/-- The width of a text made of space glyphs of one character, `none` if it holds
anything else. -/
def indentWidth? (engine : Engine W) (text : List Char) : Option W :=
  text.foldlM (fun total letter => (engine.glyphs.widthOf? letter.toString).map (total + ·))
    Width.zero

end Engine

/-- The width of an untabulated character unless something else is asked for. -/
def defaultFallback : Float :=
  25.6

end MessageBlocks
