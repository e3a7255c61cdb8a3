import MessageBlocks.Events.Entry
import MessageBlocks.Number.Reading
import MessageBlocks.Text.Blank

/-!
# Log filters

A filter is a list of directives between commas. A directive is a level, a target
with a level after an equals sign, or a target alone, which enables every level. Of
the directives whose target is a start of the target of an event the one with the
longest target decides, of those with the same target one for a field, and of equal ones
the last. A directive for a span or a field stands in brackets. One for a span or for the
value of a field never enables events, which have no span around them; one for a field
is about the events that have it.
-/

namespace MessageBlocks

/-- The levels of a filter: off, or a severity from which on events are enabled. -/
abbrev Level :=
  Option Severity

namespace Level

/-- The level for the events that are at least as important as a rank. -/
def ofRank? : Nat → Option Level
  | 0 => some none
  | 1 => some (some .error)
  | 2 => some (some .warn)
  | 3 => some (some .info)
  | 4 => some (some .debug)
  | 5 => some (some .trace)
  | _ => none

def ofNumber? (text : List Char) : Option Level :=
  let digits :=
    match text with
    | '+' :: rest => rest
    | rest => rest
  if !digits.isEmpty && digits.all Char.isDigit then ofRank? (Number.ofDigits digits) else none

/-- The level of a word, in any case. No word at all is the level of errors. -/
def ofWord? (text : List Char) : Option Level :=
  match String.ofList (text.map Char.toLower) with
  | "" => some (some .error)
  | "error" => some (some .error)
  | "warn" => some (some .warn)
  | "info" => some (some .info)
  | "debug" => some (some .debug)
  | "trace" => some (some .trace)
  | "off" => some none
  | _ => none

def ofText? (text : List Char) : Option Level :=
  (ofNumber? text).or (ofWord? text)

def enables (level : Level) (severity : Severity) : Bool :=
  level.any fun least => severity.verbosity ≤ least.verbosity

end Level

/-- A directive of a filter. The empty target is a start of every target. -/
structure Directive where
  target : List Char
  field : Option String
  level : Level
  isForSpans : Bool
  deriving DecidableEq, Repr

namespace Directive

/-- Whether a character is a letter or a digit. Outside of ASCII every character that
is not blank counts as one. -/
def isWordCharacter (character : Char) : Bool :=
  character.isAlphanum || (0x80 ≤ character.toNat && !Text.isBlank character)

/-- Whether a directive can start with a character. -/
def isStart (character : Char) : Bool :=
  isWordCharacter character || character == '-' || character == ':' || character == '_'

def startsBlank (text : List Char) : Bool :=
  text.head?.any Text.isBlank

/-- The level after an equals sign, where nothing enables every level. -/
def levelAfter? (text : List Char) : Option Level :=
  if text.isEmpty then some (some .trace) else Level.ofText? text

/-- The span or the field in brackets, after the opening bracket, and what follows them.
A field is alone if the answer has it. -/
def readBrackets? (text : List Char) : Option (Option String × List Char) :=
  let name := text.takeWhile fun character => character != ']' && character != '\x7b'
  match text.drop name.length with
  | ']' :: rest => some (none, rest)
  | '\x7b' :: rest =>
      let field := rest.takeWhile (· != '\x7d')
      match rest.drop field.length with
      | '\x7d' :: ']' :: rest =>
          if field.isEmpty then none
          else if name.isEmpty && !field.contains '=' then some (some (String.ofList field), rest)
          else some (none, rest)
      | _ => none
  | _ => none

/-- The directive for the spans or the events of a target, after the opening bracket. -/
def ofBrackets? (target : List Char) (text : List Char) : Option Directive := do
  let (field, rest) ← readBrackets? text
  let isForSpans := field.isNone || startsBlank target
  match rest with
  | '=' :: rest =>
      if startsBlank target then none else return ⟨target, field, ← levelAfter? rest, isForSpans⟩
  | rest =>
      if Text.isBlankText rest then return ⟨target, field, some .trace, isForSpans⟩ else none

/-- The directive in a text. Blank characters are part of it; there may be none in
front of a target that has a level. -/
def read? (text : List Char) : Option Directive :=
  let word := text.takeWhile fun character => character != '=' && character != '['
  let start? := (text.dropWhile Text.isBlank).head?
  if !(start?.any fun start => isStart start || start == '[') then none
  else
    match text.drop word.length with
    | '=' :: rest =>
        if startsBlank word then none
        else (levelAfter? rest).map fun level => ⟨word, none, level, false⟩
    | '[' :: rest => ofBrackets? word rest
    | _ =>
        match Level.ofText? word with
        | some level => some ⟨[], none, level, false⟩
        | none => some ⟨word, none, some .trace, false⟩

end Directive

abbrev Filter :=
  List Directive

namespace Filter

/-- The filter without directives of its own, which enables errors. -/
def standard : Filter :=
  [⟨[], none, some .error, false⟩]

/-- The filter that a text describes. Empty directives are skipped. -/
def read? (text : String) : Option Filter := do
  let parts := (text.toList.splitOn ',').filter (!·.isEmpty)
  let directives ← parts.mapM Directive.read?
  return if directives.isEmpty then standard else directives

/-- Whether a directive is about the events of a target with some fields. -/
def isAbout (target : List Char) (fields : List String) (directive : Directive) : Bool :=
  !directive.isForSpans && directive.target.isPrefixOf target &&
    directive.field.all fields.contains

def isMoreSpecific (first second : Directive) : Bool :=
  if first.target.length ≠ second.target.length then
    second.target.length < first.target.length
  else
    match first.field, second.field with
    | some field, some other => other < field
    | some _, none => true
    | none, _ => false

/-- The more specific of two directives, where the second one comes later. -/
def moreSpecific (first second : Directive) : Directive :=
  if isMoreSpecific first second then first else second

/-- The directive that decides about the events of a target with some fields. -/
def deciding? (filter : Filter) (target : List Char) (fields : List String) :
    Option Directive :=
  (filter.filter (isAbout target fields)).foldl
    (fun best directive => some ((best.map (moreSpecific · directive)).getD directive)) none

/-- Whether a filter enables the events of a target with some fields and a severity. -/
def enables (filter : Filter) (target : List Char) (fields : List String)
    (severity : Severity) : Bool :=
  (filter.deciding? target fields).any fun directive => directive.level.enables severity

end Filter

end MessageBlocks
