import MessageBlocks.Layout.Width
import MessageBlocks.Text.Escape

/-!
# Lines

Blocks are rendered to lines that carry their indent as a width, so that the
indents of nested lists add up exactly and every line gets a single indent in
the end. A page collects lines, with an empty line around each paragraph.
-/

namespace MessageBlocks

/-- A line and the width by which it is indented. -/
structure Line (W : Type) where
  indent : W
  text : List Char
  deriving DecidableEq, Repr

namespace Line

variable {W : Type} [Width W]

omit [Width W] in
def isBlank (line : Line W) : Bool :=
  line.text.isEmpty

/-- A line at the margin. -/
def flush (text : List Char) : Line W :=
  ⟨Width.zero, text⟩

/-- The lines of a run of text, each without the spaces around it. A run of
nothing but spaces and line feeds has none. -/
def ofRun (text : List Char) : List (Line W) :=
  if text.all (fun character => character == ' ' || character == '\n') then []
  else (Text.lines text).map fun line => flush (Text.trimSpaces line)

/-- The lines of a quote, given the texts of the quoted lines. -/
def quoted (texts : List (List Char)) : List (Line W) :=
  texts.map fun text => flush (if text.isEmpty then ['>'] else '>' :: ' ' :: text)

/-- The fence around preformatted text. -/
def fence : Line W :=
  flush ['\x60', '\x60', '\x60']

def fenced (text : List Char) : List (Line W) :=
  fence :: (Text.lines (Text.trimLineFeeds text)).map flush ++ [fence]

end Line

/-- Lines put together so far. A gap that has been asked for becomes an empty line
before the next one. -/
structure Page (W : Type) where
  lines : List (Line W)
  gap : Bool
  deriving DecidableEq, Repr

namespace Page

variable {W : Type} [Width W]

omit [Width W] in
def empty : Page W :=
  ⟨[], false⟩

omit [Width W] in
/-- Whether the page ends in a line with text. -/
def endsInText (page : Page W) : Bool :=
  page.lines.getLast?.any (!·.isBlank)

/-- Add a line, after an empty one if a gap is due. -/
def push (page : Page W) (line : Line W) : Page W :=
  ⟨page.lines ++ (if page.gap && page.endsInText then [Line.flush [], line] else [line]), false⟩

def pushAll (page : Page W) (lines : List (Line W)) : Page W :=
  lines.foldl push page

omit [Width W] in
/-- Ask for a gap before the next line. No gap opens a page. -/
def requestGap (page : Page W) : Page W :=
  ⟨page.lines, page.gap || !page.lines.isEmpty⟩

omit [Width W] in
/-- The lines of the page, without empty lines at either end. -/
def finish (page : Page W) : List (Line W) :=
  (page.lines.reverse.dropWhile Line.isBlank).reverse.dropWhile Line.isBlank

end Page

/-- What a node of markup contributes to a page. -/
inductive Piece (W : Type) where
  | run (text : List Char)
  | paragraph (text : List Char)
  | block (lines : List (Line W))
  deriving DecidableEq, Repr

namespace Piece

variable {W : Type} [Width W]

/-- Put pieces on a page. Neighbouring runs are one run; `pending` is the run that
has been read before the pieces. -/
def place (page : Page W) (pending : List Char) : List (Piece W) → Page W
  | [] => page.pushAll (Line.ofRun pending)
  | .run text :: rest => place page (pending ++ text) rest
  | .paragraph text :: rest =>
      let page := (page.pushAll (Line.ofRun pending)).requestGap
      place (page.pushAll (Line.ofRun text)).requestGap [] rest
  | .block lines :: rest => place ((page.pushAll (Line.ofRun pending)).pushAll lines) [] rest

def lines (pieces : List (Piece W)) : List (Line W) :=
  (place Page.empty [] pieces).finish

end Piece

end MessageBlocks
