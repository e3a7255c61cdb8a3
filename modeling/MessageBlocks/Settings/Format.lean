import MessageBlocks.Json.Basic
import MessageBlocks.Number.Reading
import MessageBlocks.Yaml.Basic

/-!
# Formats of settings

Settings are read from JSON and from YAML. Both formats have records and scalars;
they differ in which values mean that something is absent and in which scalars can
be read as a string, a boolean or a number.
-/

namespace MessageBlocks

/-- A format from which settings can be read. The fields of a record are given in the
order of the names asked for, and a value that is marked as null and is something else
is neither null nor not. -/
structure RecordFormat (V : Type) where
  record? : List String → V → Option (List (Option V))
  isNull? : V → Option Bool
  string? : V → Option String
  bool? : V → Option Bool
  float? : V → Option Float

namespace RecordFormat

variable {V α : Type}

def optional? (format : RecordFormat V) (decode : V → Option α) : Option V → Option (Option α)
  | none => some none
  | some value => do if ← format.isNull? value then return none else return some (← decode value)

end RecordFormat

def Json.recordFormat : RecordFormat Json where
  record? := Json.record?
  isNull? value := match value with
    | .null => some true
    | _ => some false
  string? := Json.string?
  bool? := Json.bool?
  float? := Json.float?

namespace Yaml

def standardTag (name : String) : List Char :=
  ("tag:yaml.org,2002:" ++ name).toList

def nullWords : List String :=
  ["~", "null", "Null", "NULL"]

def boolOfText? (text : String) : Option Bool :=
  if ["true", "True", "TRUE"].contains text then some true
  else if ["false", "False", "FALSE"].contains text then some false
  else none

/-- The double that a text stands for: a decimal number with an optional sign, or
infinity or NaN after a period. -/
def floatOfText? (text : String) : Option Float :=
  let unsigned :=
    match text.toList with
    | '+' :: rest => rest
    | rest => rest
  if [".inf", ".Inf", ".INF"].contains (String.ofList unsigned) then some (1 / 0)
  else if ["-.inf", "-.Inf", "-.INF"].contains text then some (-1 / 0)
  else if [".nan", ".NaN", ".NAN"].contains text then some (0 / 0)
  else if text.startsWith "++" || text.startsWith "+-" then none
  else (Number.readFloat? unsigned).filter Float.isFinite

namespace Node

/-- Whether a value is null: a plain scalar without a tag that is empty or one of the
words. The tag of null is refused on any other plain scalar than the words. -/
def isNull? : Node → Option Bool
  | .scalar .plain none text => some (text.isEmpty || nullWords.contains text)
  | .scalar .plain (some tag) text =>
      if tag ≠ standardTag "null" then some false
      else if nullWords.contains text then some true
      else none
  | _ => some false

def bool? (node : Node) : Option Bool :=
  (node.typedText? (standardTag "bool")).bind boolOfText?

def float? (node : Node) : Option Float :=
  (node.typedText? (standardTag "float")).bind floatOfText?

end Node

namespace Document

/-- The fields of a record: a mapping whose keys are scalars and whose other entries
are skipped, or an empty plain scalar. A field that is written twice is refused. -/
def record? (document : Document) (names : List String) (node : Node) :
    Option (List (Option Node)) :=
  match document.valueOf node with
  | .mapping entries => do
      let members ← entries.mapM fun entry =>
        (document.valueOf entry.1).text?.map (·, entry.2)
      let written := members.filter fun member => names.contains member.1
      if (written.map Prod.fst).Nodup then
        some (names.map fun name => Keyed.find? name written)
      else none
  | .scalar .plain _ "" => some (names.map fun _ => none)
  | _ => none

/-- The records of a document. Every scalar can be read as a string. -/
def recordFormat (document : Document) : RecordFormat Node where
  record? := document.record?
  isNull? node := (document.valueOf node).isNull?
  string? node := (document.valueOf node).text?
  bool? node := (document.valueOf node).bool?
  float? node := (document.valueOf node).float?

end Document

end Yaml

end MessageBlocks
