import MessageBlocks.Layout.Metrics

/-!
# Glyph tables

A glyph table lists the space glyphs from the widest to the narrowest. Of the
glyphs that share a width the table keeps the least one, so it does not depend
on the order in which glyphs are put in.
-/

namespace MessageBlocks

/-- A space glyph and its width. -/
structure Glyph (W : Type) where
  width : W
  text : String
  deriving DecidableEq, Repr

abbrev GlyphTable (W : Type) :=
  List (Glyph W)

namespace GlyphTable

variable {W : Type} [Width W]

/-- Put a glyph in its place. Of two glyphs of one width the lesser stays. -/
def insert (glyph : Glyph W) : GlyphTable W → GlyphTable W
  | [] => [glyph]
  | head :: rest =>
      match Width.order glyph.width head.width with
      | .gt => glyph :: head :: rest
      | .eq => (if glyph.text < head.text then glyph else head) :: rest
      | .lt => head :: insert glyph rest

def ofSpaces (spaces : List (String × W)) : GlyphTable W :=
  spaces.foldl (fun table entry => insert ⟨entry.2, entry.1⟩ table) []

omit [Width W] in
def narrowest? (table : GlyphTable W) : Option W :=
  table.getLast?.map Glyph.width

omit [Width W] in
def widthOf? (table : GlyphTable W) (text : String) : Option W :=
  (table.find? (·.text == text)).map Glyph.width

end GlyphTable

end MessageBlocks
