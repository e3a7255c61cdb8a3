import MessageBlocks.Calendar.Timestamp
import MessageBlocks.Text.Escape

/-!
# Marks and control tokens

Bold, italic, struck and code text stands between marks. Links, mentions and
dates are control tokens between angle brackets.
-/

namespace MessageBlocks.Markup

/-- A line with a mark at both ends of its core. A line without a core has none. -/
def markLine (mark : Char) (line : List Char) : List Char :=
  let parts := Text.padded line
  parts.lead ++ (if parts.core.isEmpty then [] else mark :: parts.core ++ [mark]) ++ parts.tail

/-- A text with every line marked by itself, since marks cannot span lines. -/
def marked (mark : Char) (text : List Char) : List Char :=
  Text.unlines ((Text.lines text).map (markLine mark))

/-- The token of a mention, if the target of a link is one. -/
def mention? (target : List Char) : Option (List Char) :=
  if target = "@here".toList ∨ target = "@channel".toList ∨ target = "@everyone".toList then
    some ('<' :: '!' :: target.drop 1 ++ ['>'])
  else
    match target with
    | '@' :: 'S' :: rest => some ("<!subteam^S".toList ++ rest ++ ['>'])
    | '@' :: 'U' :: rest => some ('<' :: '@' :: 'U' :: rest ++ ['>'])
    | '@' :: 'W' :: rest => some ('<' :: '@' :: 'W' :: rest ++ ['>'])
    | '#' :: 'C' :: rest => some ('<' :: '#' :: 'C' :: rest ++ ['>'])
    | _ => none

/-- The label of a link: one line without spaces around it. -/
def linkLabel (text : List Char) : List Char :=
  Text.trimSpaces (text.map fun character => if character = '\n' then ' ' else character)

/-- A bar in a link target, which would end it, is written by its number. -/
def escapeBar (character : Char) : List Char :=
  if character = '|' then ['%', '7', 'C'] else [character]

def linkTarget (target : List Char) : List Char :=
  (Text.escape target).flatMap escapeBar

/-- The text of a link with the given text inside. A link without a target is its
label, and a mention does without a label. -/
def linkText (target : Option String) (text : List Char) : List Char :=
  let label := linkLabel text
  let target := (target.getD "").toList
  if target.isEmpty then label
  else
    (mention? target).getD
      ('<' :: linkTarget target ++ (if label.isEmpty then [] else '|' :: label) ++ ['>'])

/-- The format of a date token that has none of its own. -/
def defaultTimeFormat : List Char :=
  "\x7bdate_num\x7d \x7btime_secs\x7d".toList

/-- The text of a time whose content is the given text. Without a timestamp it is
the fallback or the content. -/
def timeText (timestamp : Option Int64) (fallback : Option String) (text : List Char) :
    List Char :=
  let format := Text.trim text
  match timestamp with
  | none => Text.escape ((fallback.map String.toList).getD format)
  | some timestamp =>
      let shown := (fallback.map String.toList).getD (Timestamp.readable timestamp.toInt)
      "<!date^".toList ++ Number.intText timestamp.toInt ++
        '^' :: Text.escape (if format.isEmpty then defaultTimeFormat else format) ++
        '|' :: Text.escape shown ++ ['>']

end MessageBlocks.Markup
