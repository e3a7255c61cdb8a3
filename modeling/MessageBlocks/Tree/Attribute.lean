import MessageBlocks.Keyed
import MessageBlocks.Number.Reading
import MessageBlocks.Number.Text
import MessageBlocks.Text.Blank

/-!
# Attributes

An attribute value is a scalar. It can be read as text, as a boolean or as a
number, whichever kind of scalar was written: a form that quotes its numbers and
one that does not mean the same.
-/

namespace MessageBlocks

/-- A scalar attribute value. -/
inductive AttributeValue where
  | null
  | bool (value : Bool)
  | number (value : Float)
  | string (value : String)
  deriving DecidableEq, Inhabited, Repr

namespace AttributeValue

def isNull : AttributeValue → Bool
  | .null => true
  | _ => false

def string? : AttributeValue → Option String
  | .string value => some value
  | _ => none

/-- The boolean reading. The strings `true` and `false` have one too. -/
def bool? : AttributeValue → Option Bool
  | .bool value => some value
  | .string "true" => some true
  | .string "false" => some false
  | _ => none

/-- The numeric reading. A string has one if it is a decimal number between
blank characters. -/
def float? : AttributeValue → Option Float
  | .number value => some value
  | .string value => Number.readFloat? (Text.trim value.toList)
  | _ => none

/-- The text of a number. Integral numbers of 64 bits are written as integers,
so that negative zero has no sign. -/
def numberText (value : Float) : List Char :=
  match Number.Binary.ofFloat? value with
  | some binary =>
      if binary.isIntegral && Number.fitsInt64 binary.truncate then
        Number.intText binary.truncate
      else Number.floatText value
  | none => Number.floatText value

/-- The textual form, which value checks and output fields use. -/
def literal : AttributeValue → String
  | .null => ""
  | .bool true => "true"
  | .bool false => "false"
  | .number value => String.ofList (numberText value)
  | .string value => value

end AttributeValue

/-- The attributes of an element: at most one for each name, sorted by name. -/
structure Attributes where
  entries : List (String × AttributeValue)
  sorted : Keyed.Sorted entries := by exact Keyed.sorted_nil

namespace Attributes

instance : EmptyCollection Attributes where
  emptyCollection := { entries := [] }

instance : Inhabited Attributes where
  default := ∅

def insert (name : String) (value : AttributeValue) (attributes : Attributes) : Attributes where
  entries := Keyed.insert name value attributes.entries
  sorted := Keyed.sorted_insert name value attributes.sorted

/-- The attributes of a list in which a later entry wins over an earlier one of
the same name. -/
def ofList (entries : List (String × AttributeValue)) : Attributes where
  entries := Keyed.ofList entries
  sorted := Keyed.sorted_ofList entries

/-- The value that was set for a name, a null included. -/
def find? (name : String) (attributes : Attributes) : Option AttributeValue :=
  Keyed.find? name attributes.entries

/-- The value of an attribute, where null means absent. -/
def get? (name : String) (attributes : Attributes) : Option AttributeValue :=
  (attributes.find? name).filter (!·.isNull)

end Attributes

end MessageBlocks
