import MessageBlocks.Layout.Query
import MessageBlocks.Markup.Line
import MessageBlocks.Markup.Numbering
import MessageBlocks.Markup.Plain
import MessageBlocks.Markup.Token

/-!
# Rendering markup

Markup is rendered to pieces of a page and these to lines. Only lists ask the
layout engine for widths: their markers are aligned at the right, and everything
after the first line of an item is indented past the marker and its space. The
indents themselves are asked for when a line becomes text.
-/

namespace MessageBlocks

variable {W : Type} [Width W]

namespace Line

/-- The text of a line with its indent in front. -/
def render (line : Line W) : Query W (List Char) :=
  if line.isBlank then pure []
  else do
    let indent ← Query.indentOf line.indent
    return indent ++ line.text

def renderAll : List (Line W) → Query W (List (List Char))
  | [] => pure []
  | line :: rest => do
      let text ← line.render
      let texts ← renderAll rest
      return text :: texts

end Line

def measureAll : List (List Char) → Query W (List W)
  | [] => pure []
  | text :: rest => do
      let width ← Query.width text
      let widths ← measureAll rest
      return width :: widths

/-- The content of a list item: the text of its first line, and its other lines. -/
structure ItemBody (W : Type) where
  first : Option (List Char)
  others : List (Line W)
  deriving DecidableEq, Repr

namespace ItemBody

def ofLines : List (Line W) → Query W (ItemBody W)
  | [] => pure ⟨none, []⟩
  | line :: rest => do
      let text ← line.render
      return ⟨some text, rest⟩

/-- The lines of an item. The first one is padded so that markers end at the same
place, and the others are indented past the marker. -/
def lines (body : ItemBody W) (marker : List Char) (padding content : W) : List (Line W) :=
  let first : Line W :=
    match body.first with
    | some text => ⟨padding, marker ++ ' ' :: text⟩
    | none => ⟨padding, marker⟩
  first :: body.others.map fun line =>
    if line.isBlank then Line.flush line.text else ⟨content + line.indent, line.text⟩

end ItemBody

namespace ListKind

/-- The lines of a list, given the content of its items. -/
def lines (widest space : W) : List (List Char) → List W → List (ItemBody W) → List (Line W)
  | marker :: markers, width :: widths, body :: bodies =>
      body.lines marker (widest - width) (widest + space) ++
        lines widest space markers widths bodies
  | _, _, _ => []

def markers (kind : ListKind) (depth : Nat) (items : List ListItem) : List (List Char) :=
  (ListItem.numbers kind.start items).map (kind.marker depth)

end ListKind

namespace Piece

/-- A piece as part of a run: blocks and paragraphs are rendered by themselves and
their lines joined. -/
def flatten : Piece W → Query W (List Char)
  | .run text => pure text
  | piece => Text.unlines <$> Line.renderAll (Piece.lines [piece])

end Piece

mutual

/-- What a node contributes to a page, where `depth` counts the lists around it. -/
def Markup.piece (depth : Nat) : Markup → Query W (Piece W)
  | .text content => pure (.run (Text.escape (Text.collapse content.toList)))
  | .bold children => (fun text => .run (Markup.marked '*' text)) <$> Markup.run children
  | .italic children => (fun text => .run (Markup.marked '_' text)) <$> Markup.run children
  | .strike children => (fun text => .run (Markup.marked '~' text)) <$> Markup.run children
  | .code children =>
      pure (.run (Markup.marked '\x60' (Text.escape (Markup.plainAll children))))
  | .link target children =>
      (fun text => .run (Markup.linkText target text)) <$> Markup.run children
  | .time timestamp fallback format =>
      pure (.run (Markup.timeText timestamp fallback (Markup.plainAll format)))
  | .lineBreak => pure (.run ['\n'])
  | .paragraph children => Piece.paragraph <$> Markup.run children
  | .blockquote children => do
      let pieces ← Markup.pieces depth children
      let texts ← Line.renderAll (Piece.lines pieces)
      return .block (Line.quoted texts)
  | .preformatted children =>
      (fun text => .block (Line.fenced text)) <$> Markup.verbatim children
  | .list kind items => do
      let markers := kind.markers depth items
      let widths ← measureAll markers
      let space ← Query.width [' ']
      let bodies ← ListItem.bodies (depth + 1) items
      return .block (ListKind.lines (widths.foldl Width.larger Width.zero) space
        markers widths bodies)

def Markup.pieces (depth : Nat) : List Markup → Query W (List (Piece W))
  | [] => pure []
  | node :: rest => do
      let piece ← Markup.piece depth node
      let pieces ← Markup.pieces depth rest
      return piece :: pieces

def Markup.run : List Markup → Query W (List Char)
  | [] => pure []
  | node :: rest => do
      let piece ← Markup.piece 0 node
      let text ← piece.flatten
      let texts ← Markup.run rest
      return text ++ texts

/-- Several nodes as preformatted text. Of all formatting only links remain. -/
def Markup.verbatim : List Markup → Query W (List Char)
  | [] => pure []
  | .link target children :: rest => do
      let text ← Markup.run children
      let texts ← Markup.verbatim rest
      return Markup.linkText target text ++ texts
  | .text content :: rest => do
      let texts ← Markup.verbatim rest
      return Text.escape content.toList ++ texts
  | node :: rest => do
      let texts ← Markup.verbatim rest
      return Markup.plain node ++ texts

def ListItem.bodies (depth : Nat) : List ListItem → Query W (List (ItemBody W))
  | [] => pure []
  | ⟨_, children⟩ :: rest => do
      let pieces ← Markup.pieces depth children
      let body ← ItemBody.ofLines (Piece.lines pieces)
      let bodies ← ListItem.bodies depth rest
      return body :: bodies

end

namespace Markup

def lines (depth : Nat) (nodes : List Markup) : Query W (List (Line W)) :=
  Piece.lines <$> pieces depth nodes

def render (nodes : List Markup) : Query W (List Char) := do
  let lines ← lines 0 nodes
  let texts ← Line.renderAll lines
  return Text.unlines texts

end Markup

end MessageBlocks
