import MessageBlocks.Markup.Basic
import MessageBlocks.Text.Escape

/-!
# Plain text of markup

Buttons, headers and option labels take plain text. Their markup loses all
formatting; blocks and list items start on a new line.
-/

namespace MessageBlocks

mutual

def Markup.plain : Markup → List Char
  | .text content => Text.collapse content.toList
  | .bold children | .italic children | .strike children | .code children =>
      Markup.plainAll children
  | .link target children =>
      if children.isEmpty then (target.getD "").toList else Markup.plainAll children
  | .time _ fallback format =>
      match fallback with
      | some fallback => fallback.toList
      | none => Markup.plainAll format
  | .lineBreak => ['\n']
  | .paragraph children | .blockquote children | .preformatted children =>
      '\n' :: Markup.plainAll children ++ ['\n']
  | .list _ items => ListItem.plainAll items ++ ['\n']

def Markup.plainAll : List Markup → List Char
  | [] => []
  | node :: rest => Markup.plain node ++ Markup.plainAll rest

/-- The text of the items of a list without formatting. -/
def ListItem.plainAll : List ListItem → List Char
  | [] => []
  | ⟨_, children⟩ :: rest => '\n' :: Markup.plainAll children ++ ListItem.plainAll rest

end

namespace Markup

/-- A text with the spaces around each line dropped, and the blank characters
around the whole. -/
def tidy (text : List Char) : List Char :=
  Text.trim (Text.unlines ((Text.lines text).map Text.trimSpaces))

def plainText (nodes : List Markup) : List Char :=
  tidy (plainAll nodes)

end Markup

end MessageBlocks
