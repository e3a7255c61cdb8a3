import MessageBlocks.Yaml.Quoted

/-!
# Plain scalars of YAML

A plain scalar ends at a colon before a blank, at a number sign after a blank, at a
document mark, and within a flow collection at any sign of such a collection. It may
run over several lines as long as they are deep enough, and its lines are joined like
those of a quoted scalar.
-/

namespace MessageBlocks.Yaml

/-- Whether a character is a sign of flow collections. -/
def isFlowSign (character : Char) : Bool :=
  character == ',' || character == '[' || character == ']' || character == '\x7b' ||
    character == '\x7d'

/-- Whether a plain scalar ends in front of a character within a line. -/
def stopsPlain (inFlow : Bool) (character : Char) (rest : List Letter) : Bool :=
  (character == ':' && startsBlank rest) || (inFlow && isFlowSign character)

/-- Whether a character is a colon that runs into a sign of flow collections. -/
def isStrayColon (character : Char) (rest : List Letter) : Bool :=
  character == ':' && rest.head?.any fun next => next.char == '?' || isFlowSign next.char

/-- The content of a plain scalar, the text after it and the gap behind it, and whether
that gap reaches over a line end. A line that is less deep than `least` is not part of
the scalar, and no tab may stand at its start. -/
def readPlain? (inFlow : Bool) (least : Nat) (gap : Gap) :
    List Letter → Option (List Char × List Letter × Bool)
  | [] => some ([], [], gap.isBroken)
  | letter :: rest =>
      let isShallow := letter.place.column < least
      if isBreak letter.char then readPlain? inFlow least (gap.addBreak letter.char) rest
      else if isBlank letter.char then
        if gap.isBroken && isShallow && letter.char == '\t' then none
        else readPlain? inFlow least (gap.addBlank letter.char) rest
      else if !gap.isEmpty &&
          ((isShallow && !inFlow) || letter.char == '#' || isDocumentMark (letter :: rest)) then
        some ([], letter :: rest, gap.isBroken)
      else if inFlow && isStrayColon letter.char rest then none
      else if stopsPlain inFlow letter.char rest then some ([], letter :: rest, gap.isBroken)
      else do
        let (content, after, broken) ← readPlain? inFlow least .empty rest
        return (gap.text ++ letter.char :: content, after, broken)

end MessageBlocks.Yaml
