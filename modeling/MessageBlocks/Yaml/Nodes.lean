import MessageBlocks.Yaml.Basic

/-!
# Values from tokens

Tokens are read into the value that they describe. An anchor is numbered when its
value starts, by the count of names known by then, so a name that is used again gets
a new number; an alias has the number that its name had last.
-/

namespace MessageBlocks.Yaml

/-- What is left to read, and the numbers of the names known so far. -/
structure Reading where
  tokens : List Token
  numbers : List (List Char × Nat)

abbrev Reader :=
  StateT Reading Option

abbrev Handles :=
  List (List Char × List Char)

/-- Where a value stands: in a flow collection, in a block collection, or in an entry of
a block mapping, where a sequence need not be deeper than its key. -/
inductive Position where
  | flow
  | block
  | entry
  deriving DecidableEq, Repr

/-- An anchor as a number and a tag in front of a value. -/
structure Properties where
  number : Option Nat
  tag : Option (List Char)
  deriving DecidableEq, Repr

namespace Properties

def isSome (properties : Properties) : Bool :=
  properties.number.isSome || properties.tag.isSome

/-- A value with its anchor. -/
def mark (properties : Properties) (node : Node) : Node :=
  match properties.number with
  | some number => .anchored number node
  | none => node

end Properties

namespace Reader

def next? : Reader (Option Token) :=
  return (← get).tokens.head?

def advance : Reader Unit :=
  modify fun reading => { reading with tokens := reading.tokens.drop 1 }

/-- Pass a given token if it is the next one. The answer says whether it was. -/
def accept (token : Token) : Reader Bool := do
  if (← next?) = some token then
    advance
    return true
  else return false

def expect (token : Token) : Reader Unit := do
  if ← accept token then return () else failure

def numberAnchor (name : List Char) : Reader Nat :=
  modifyGet fun reading =>
    let number := reading.numbers.length
    let others := reading.numbers.filter fun entry => entry.1 ≠ name
    (number, { reading with numbers := (name, number) :: others })

def numberOfAlias (name : List Char) : Reader Nat := do
  match (← get).numbers.lookup name with
  | some number => return number
  | none => failure

def readAnchor : Reader (Option Nat) := do
  match ← next? with
  | some (.anchor name) =>
      advance
      return some (← numberAnchor name)
  | _ => return none

/-- The tag that comes next, if one does. Its handle has to be known. -/
def readTag (handles : Handles) : Reader (Option (List Char)) := do
  match ← next? with
  | some (.tag [] suffix) =>
      advance
      return some suffix
  | some (.tag handle suffix) =>
      advance
      match handles.lookup handle with
      | some start => return some (start ++ suffix)
      | none => failure
  | _ => return none

/-- The anchor and the tag that come next, in any order. -/
def readProperties (handles : Handles) : Reader Properties := do
  match ← readAnchor with
  | some number => return ⟨some number, ← readTag handles⟩
  | none =>
      match ← readTag handles with
      | some tag => return ⟨← readAnchor, some tag⟩
      | none => return ⟨none, none⟩

mutual

/-- The value that comes next. Every step takes one unit of fuel, and thrice the number
of tokens is enough. -/
def readNode (handles : Handles) : Nat → Position → Reader Node
  | 0, _ => failure
  | fuel + 1, position => do
      match ← next? with
      | some (.alias name) =>
          advance
          return .alias (← numberOfAlias name)
      | _ =>
          let properties ← readProperties handles
          properties.mark <$> readContent handles fuel position properties

/-- The value after its properties. It may be left out if there are any. -/
def readContent (handles : Handles) : Nat → Position → Properties → Reader Node
  | 0, _, _ => failure
  | fuel + 1, position, properties => do
      match ← next?, position with
      | some .item, .entry => return .sequence (← readLevelItems handles fuel)
      | some (.scalar style text), _ =>
          advance
          return .scalar style properties.tag (String.ofList text)
      | some .flowSequence, _ =>
          advance
          return .sequence (← readFlowItems handles fuel true)
      | some .flowMapping, _ =>
          advance
          return .mapping (← readFlowEntries handles fuel true)
      | some .blockSequence, .block | some .blockSequence, .entry =>
          advance
          return .sequence (← readItems handles fuel)
      | some .blockMapping, .block | some .blockMapping, .entry =>
          advance
          return .mapping (← readEntries handles fuel)
      | _, _ => if properties.isSome then return .scalar .plain properties.tag "" else failure

/-- The value that comes next unless one of some tokens does. -/
def readUnless (handles : Handles) :
    Nat → List Token → Position → Reader Node
  | 0, _, _ => failure
  | fuel + 1, ends, position => do
      if (← next?).any ends.contains then return .nothing
      else readNode handles fuel position

/-- The items of a block sequence up to its end. -/
def readItems (handles : Handles) : Nat → Reader (List Node)
  | 0 => failure
  | fuel + 1 => do
      if ← accept .blockEnd then return []
      else
        expect .item
        let item ← readUnless handles fuel [.item, .blockEnd] .block
        return item :: (← readItems handles fuel)

/-- The items of a block sequence that is not deeper than its key. -/
def readLevelItems (handles : Handles) : Nat → Reader (List Node)
  | 0 => failure
  | fuel + 1 => do
      if ← accept .item then
        let item ← readUnless handles fuel [.item, .key, .value, .blockEnd] .block
        return item :: (← readLevelItems handles fuel)
      else return []

/-- The entries of a block mapping up to its end. -/
def readEntries (handles : Handles) : Nat → Reader (List (Node × Node))
  | 0 => failure
  | fuel + 1 => do
      if ← accept .blockEnd then return []
      else
        expect .key
        let key ← readUnless handles fuel [.key, .value, .blockEnd] .entry
        let value ← readValue handles fuel [.key, .value, .blockEnd] .entry
        return (key, value) :: (← readEntries handles fuel)

/-- The value of an entry, if it has one. -/
def readValue (handles : Handles) : Nat → List Token → Position → Reader Node
  | 0, _, _ => failure
  | fuel + 1, ends, position => do
      if ← accept .value then readUnless handles fuel ends position else return .nothing

/-- The items of a flow sequence up to its end. A marked key makes an item that is a
mapping of one entry. -/
def readFlowItems (handles : Handles) : Nat → Bool → Reader (List Node)
  | 0, _ => failure
  | fuel + 1, isFirst => do
      if ← accept .flowSequenceEnd then return []
      else
        if !isFirst then expect .comma
        if ← accept .key then
          let entry ← readPair handles fuel
          return .mapping [entry] :: (← readFlowItems handles fuel false)
        else if ← accept .flowSequenceEnd then return []
        else
          let item ← readNode handles fuel .flow
          return item :: (← readFlowItems handles fuel false)

/-- The entry after a marked key in a flow sequence. What ends the entry in the place of
the key is passed. -/
def readPair (handles : Handles) : Nat → Reader (Node × Node)
  | 0 => failure
  | fuel + 1 => do
      let key ←
        if (← next?).any [.value, .comma, .flowSequenceEnd].contains then
          advance
          pure .nothing
        else readNode handles fuel .flow
      return (key, ← readValue handles fuel [.comma, .flowSequenceEnd] .flow)

/-- The entries of a flow mapping up to its end. A key that is not marked has no value. -/
def readFlowEntries (handles : Handles) : Nat → Bool → Reader (List (Node × Node))
  | 0, _ => failure
  | fuel + 1, isFirst => do
      if ← accept .flowMappingEnd then return []
      else
        if !isFirst then expect .comma
        if ← accept .key then
          let key ← readUnless handles fuel [.value, .comma, .flowMappingEnd] .flow
          let value ← readValue handles fuel [.comma, .flowMappingEnd] .flow
          return (key, value) :: (← readFlowEntries handles fuel false)
        else if ← accept .flowMappingEnd then return []
        else
          let key ← readNode handles fuel .flow
          return (key, .nothing) :: (← readFlowEntries handles fuel false)

end

end Reader

end MessageBlocks.Yaml
