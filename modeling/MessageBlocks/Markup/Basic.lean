/-!
# Markup

Markup is the content of a text payload in typed form: aliases of one HTML tag
are one constructor here. Paragraphs, quotes, preformatted text and lists are
blocks, which start on a line of their own.
-/

namespace MessageBlocks

/-- The numbering styles of an ordered list. -/
inductive Numbering where
  | decimal
  | lowerAlpha
  | upperAlpha
  | lowerRoman
  | upperRoman
  deriving DecidableEq, Inhabited, Repr

/-- The kinds of lists. -/
inductive ListKind where
  | unordered
  | ordered (numbering : Numbering) (start : Int64)
  deriving DecidableEq, Repr

mutual

/-- A node of markup. -/
inductive Markup where
  | text (content : String)
  | bold (children : List Markup)
  | italic (children : List Markup)
  | strike (children : List Markup)
  | code (children : List Markup)
  | link (target : Option String) (children : List Markup)
  | time (timestamp : Option Int64) (fallback : Option String) (format : List Markup)
  | lineBreak
  | paragraph (children : List Markup)
  | blockquote (children : List Markup)
  | preformatted (children : List Markup)
  | list (kind : ListKind) (items : List ListItem)

/-- An item of a list. An explicit number restarts the numbering. -/
structure ListItem where
  number : Option Int64
  children : List Markup

end

instance : Inhabited Markup where
  default := .lineBreak

instance : Inhabited ListItem where
  default := ⟨none, []⟩

namespace Markup

/-- Whether a node starts on a line of its own. -/
def isBlock : Markup → Bool
  | .paragraph _ | .blockquote _ | .preformatted _ | .list _ _ => true
  | _ => false

end Markup

end MessageBlocks
