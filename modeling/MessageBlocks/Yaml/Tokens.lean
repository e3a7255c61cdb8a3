import MessageBlocks.Yaml.Block
import MessageBlocks.Yaml.Context
import MessageBlocks.Yaml.Property

/-!
# Reading the tokens of YAML

A text is read token by token. Between tokens there are blanks, line ends and
comments; outside flow collections no tab may stand where a key may start, and a key
may start in every new line.
-/

namespace MessageBlocks.Yaml

/-- Skip what is between tokens. The answer says whether a key may start there. -/
def skipSpacing (inFlow inComment keyAllowed : Bool) : List Letter → Bool × List Letter
  | [] => (keyAllowed, [])
  | letter :: rest =>
      if isBreak letter.char then skipSpacing inFlow false (keyAllowed || !inFlow) rest
      else if inComment || letter.char == '#' then skipSpacing inFlow true keyAllowed rest
      else if letter.char == ' ' || (letter.char == '\t' && (inFlow || !keyAllowed)) then
        skipSpacing inFlow false keyAllowed rest
      else (keyAllowed, letter :: rest)

namespace Context

/-- A mark between documents or a directive, which closes all block collections. -/
def addMark? (token : Token) (context : Context) : Option Context :=
  (context.closeBlocks 0).dropCandidate?.map fun context => (context.allowKey false).add token

def addValue? (token : Token) (place : Place) (context : Context) : Option Context :=
  (context.startValue? place).map fun context => (context.allowKey false).add token

/-- A plain scalar. A key may follow it if it ends in a later line. -/
def readPlain? (letter : Letter) (rest : List Letter) (context : Context) :
    Option (Context × List Letter) := do
  let (content, rest, broken) ←
    Yaml.readPlain? context.inFlow context.least .empty (letter :: rest)
  let context ← context.addValue? (.scalar .plain content) letter.place
  return (context.allowKey broken, rest)

/-- A block scalar, after which a key may follow. -/
def readBlock? (style : Style) (rest : List Letter) (context : Context) :
    Option (Context × List Letter) := do
  let (content, rest) ← BlockScalar.read? (style == .folded) context.least rest
  let context ← context.dropCandidate?
  return ((context.allowKey true).add (.scalar style content), rest)

/-- The token that starts with a letter, and the text after it. -/
def readToken? (letter : Letter) (rest : List Letter) (context : Context) :
    Option (Context × List Letter) := do
  let place := letter.place
  let endsSign := startsBlank rest || context.inFlow
  match letter.char with
  | '[' => return (← context.openFlow? .flowSequence place, rest)
  | '\x7b' => return (← context.openFlow? .flowMapping place, rest)
  | ']' => return (← context.closeFlow? .flowSequenceEnd, rest)
  | '\x7d' => return (← context.closeFlow? .flowMappingEnd, rest)
  | ',' => return (← context.addComma?, rest)
  | '-' =>
      if startsBlank rest then return (← context.addItem? place, rest)
      else context.readPlain? letter rest
  | '?' =>
      if endsSign then return (← context.addKey? place, rest)
      else context.readPlain? letter rest
  | ':' =>
      if endsSign then return (← context.addColon? place, rest)
      else context.readPlain? letter rest
  | '*' =>
      let (name, rest) ← readName? rest
      return (← context.addValue? (.alias name) place, rest)
  | '&' =>
      let (name, rest) ← readName? rest
      return (← context.addValue? (.anchor name) place, rest)
  | '!' =>
      let (token, rest) ← Tag.read? context.inFlow rest
      return (← context.addValue? token place, rest)
  | '\'' =>
      let (content, rest) ← readSingle? .empty rest
      return (← context.addValue? (.scalar .quoted content) place, rest)
  | '"' =>
      let (content, rest) ← readDouble? .empty rest
      return (← context.addValue? (.scalar .quoted content) place, rest)
  | '|' => if context.inFlow then none else context.readBlock? .literal rest
  | '>' => if context.inFlow then none else context.readBlock? .folded rest
  | '\t' | '%' | '@' | '\x60' => none
  | _ => context.readPlain? letter rest

/-- The directive, the mark between documents or the token at the start of a text, and
the text after it. -/
def read? (letter : Letter) (rest : List Letter) (context : Context) :
    Option (Context × List Letter) :=
  if letter.place.column = 0 ∧ letter.char = '%' then do
    let (token, rest) ← Directive.read? rest
    return (← context.addMark? token, rest)
  else if isDocumentMark (letter :: rest) then do
    let token := if letter.char = '-' then .documentStart else .documentEnd
    return (← context.addMark? token, rest.drop 2)
  else context.readToken? letter rest

/-- The tokens of a text. Every token takes one unit of fuel, and one more is enough for
the end. -/
def readAll? : Nat → List Letter → Context → Option (List Token)
  | 0, _, _ => none
  | fuel + 1, text, context =>
      match skipSpacing context.inFlow false context.keyAllowed text with
      | (_, []) => (context.closeBlocks 0).dropCandidate?.map (·.tokens.reverse)
      | (keyAllowed, letter :: rest) => do
          let context ← (context.allowKey keyAllowed).expire? letter.place
          let (context, rest) ←
            (context.closeBlocks (letter.place.column + 1)).read? letter rest
          readAll? fuel rest context

end Context

def tokens? (text : List Letter) : Option (List Token) :=
  Context.start.readAll? (text.length + 1) text

end MessageBlocks.Yaml
