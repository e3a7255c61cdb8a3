import MessageBlocks.Yaml.Letter
import MessageBlocks.Yaml.Token

/-!
# Keys and the depth of lines

A key need not be marked: any value within one line may turn out to be a key when a
colon follows it, and then its mark goes in front of it. Outside flow collections a
value opens a collection if its line is deeper than the one in progress, and a line
that is less deep closes it. A context holds what the text read so far means for what
follows.
-/

namespace MessageBlocks.Yaml

/-- A value that may turn out to be a key: its place, the tokens in front of it, and
whether it has to be one, since an entry of the collection in progress starts there. -/
structure Candidate where
  place : Place
  count : Nat
  required : Bool
  deriving DecidableEq, Repr

/-- What the text read so far means: the depths of the open block collections and the
candidates around the open flow collections, the innermost first, the candidate since
then, whether a value may be a key, and the tokens, the last one first. -/
structure Context where
  depths : List Nat
  flows : List (Option Candidate)
  candidate : Option Candidate
  keyAllowed : Bool
  tokens : List Token
  count : Nat
  deriving DecidableEq, Repr

namespace Context

/-- The context at the start of a text. -/
def start : Context :=
  ⟨[], [], none, true, [], 0⟩

def inFlow (context : Context) : Bool :=
  !context.flows.isEmpty

/-- The least depth of what belongs to a part of the block collection in progress. -/
def least (context : Context) : Nat :=
  match context.depths with
  | [] => 0
  | depth :: _ => depth + 1

def add (token : Token) (context : Context) : Context :=
  { context with tokens := token :: context.tokens, count := context.count + 1 }

def allowKey (allowed : Bool) (context : Context) : Context :=
  { context with keyAllowed := allowed }

/-- Close the block collections that are at least `depth` deep. -/
def closeBlocks (depth : Nat) (context : Context) : Context :=
  if context.inFlow then context
  else
    let closed := (context.depths.takeWhile (depth ≤ ·)).length
    { context with
      depths := context.depths.drop closed
      tokens := List.replicate closed .blockEnd ++ context.tokens
      count := context.count + closed }

/-- Open a block collection at a depth unless one is open there. -/
def openBlock (token : Token) (depth : Nat) (context : Context) : Context :=
  if context.inFlow || depth < context.least then context
  else { context.add token with depths := depth :: context.depths }

/-- Give up the candidate, unless it has to be a key. -/
def dropCandidate? (context : Context) : Option Context :=
  if context.candidate.any Candidate.required then none
  else some { context with candidate := none }

/-- The greatest distance between a key and its colon. -/
def longestKey : Nat :=
  1024

/-- Give up the candidate if it cannot be followed by its colon at a place. -/
def expire? (place : Place) (context : Context) : Option Context :=
  let isOver := context.candidate.any fun candidate =>
    candidate.place.line < place.line || candidate.place.index + longestKey < place.index
  if isOver then context.dropCandidate? else some context

/-- Start a value, which may be a key if one is allowed. -/
def startValue? (place : Place) (context : Context) : Option Context :=
  if context.keyAllowed then
    let required := !context.inFlow && context.depths.head? == some place.column
    context.dropCandidate?.map fun context =>
      { context with candidate := some ⟨place, context.count, required⟩ }
  else some context

/-- Put the mark of a key in front of a candidate. -/
def markKey (key : Candidate) (context : Context) : Context :=
  let since := context.tokens.take (context.count - key.count)
  let before := { context with tokens := context.tokens.drop since.length, count := key.count }
  let marked := (before.openBlock .blockMapping key.place.column).add .key
  { marked with
    tokens := since ++ marked.tokens
    count := marked.count + since.length
    candidate := none
    keyAllowed := false }

/-- The colon of an entry. Without a candidate it follows a marked key or none. -/
def addColon? (place : Place) (context : Context) : Option Context :=
  match context.candidate with
  | some key => some ((context.markKey key).add .value)
  | none =>
      if context.inFlow then some ((context.allowKey false).add .value)
      else if context.keyAllowed then
        some ((context.openBlock .blockMapping place.column).add .value)
      else none

def addKey? (place : Place) (context : Context) : Option Context :=
  if context.inFlow then
    context.dropCandidate?.map fun context => (context.allowKey false).add .key
  else if context.keyAllowed then
    (context.openBlock .blockMapping place.column).dropCandidate?.map (add .key)
  else none

def addItem? (place : Place) (context : Context) : Option Context :=
  if context.inFlow || !context.keyAllowed then none
  else (context.openBlock .blockSequence place.column).dropCandidate?.map (add .item)

def addComma? (context : Context) : Option Context :=
  context.dropCandidate?.map fun context => (context.allowKey true).add .comma

/-- Open a flow collection, which may be a key as a whole. -/
def openFlow? (token : Token) (place : Place) (context : Context) : Option Context :=
  (context.startValue? place).map fun context =>
    { context.add token with
      flows := context.candidate :: context.flows
      candidate := none
      keyAllowed := true }

def closeFlow? (token : Token) (context : Context) : Option Context :=
  context.dropCandidate?.map fun context =>
    { (context.allowKey false).add token with
      flows := context.flows.drop 1
      candidate := context.flows.head?.join }

end Context

end MessageBlocks.Yaml
