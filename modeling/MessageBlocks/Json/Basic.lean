import MessageBlocks.Keyed

/-!
# JSON values

A JSON value in memory. Integers and doubles are kept apart, because a number
written without a point and without an exponent stays an integer. The members of
an object that has been read are in the order of the text and may repeat a name;
objects built by `Json.ofMembers` are sorted and name each member once.
-/

namespace MessageBlocks

/-- A JSON value. The value `unreadable` stands for text that has the form of a
value but means none: a number beyond the doubles, a string with half of a
surrogate pair, or brackets nested too deep. -/
inductive Json where
  | null
  | bool (value : Bool)
  | integer (value : Int)
  | float (value : Float)
  | string (value : String)
  | array (items : List Json)
  | object (members : List (String × Json))
  | unreadable
  deriving Inhabited, Repr, BEq

namespace Json

/-- An object with the given members, sorted by name; a later member replaces an
earlier one of the same name. -/
def ofMembers (members : List (String × Json)) : Json :=
  .object (Keyed.ofList members)

def ofFields (fields : List (String × Option Json)) : Json :=
  ofMembers (fields.filterMap fun field => field.2.map (field.1, ·))

/-- The member of an object with a given name. -/
def member? (name : String) : Json → Option Json
  | .object members => Keyed.find? name members
  | _ => none

def items? : Json → Option (List Json)
  | .array items => some items
  | _ => none

def string? : Json → Option String
  | .string value => some value
  | _ => none

def bool? : Json → Option Bool
  | .bool value => some value
  | _ => none

def float? : Json → Option Float
  | .integer value => some (Float.ofInt value)
  | .float value => some value
  | _ => none

mutual

def isReadable : Json → Bool
  | .array items => areReadable items
  | .object members => haveReadable members
  | .unreadable => false
  | _ => true

/-- Whether no part of the items of an array is unreadable. -/
def areReadable : List Json → Bool
  | [] => true
  | item :: rest => isReadable item && areReadable rest

/-- Whether no part of the members of an object is unreadable. -/
def haveReadable : List (String × Json) → Bool
  | [] => true
  | (_, value) :: rest => isReadable value && haveReadable rest

end

mutual

/-- The value with its objects sorted by name, where a later member wins over an
earlier one of the same name. -/
def sorted : Json → Json
  | .array items => .array (sortedItems items)
  | .object members => ofMembers (sortedMembers members)
  | value => value

/-- The items of an array with their objects sorted. -/
def sortedItems : List Json → List Json
  | [] => []
  | item :: rest => sorted item :: sortedItems rest

/-- The members of an object with the objects in their values sorted. -/
def sortedMembers : List (String × Json) → List (String × Json)
  | [] => []
  | (name, value) :: rest => (name, sorted value) :: sortedMembers rest

end

/-- The fields of a record, in the order of the given names. A record is an
object, whose other members are skipped unread, or an array of the first fields.
A field that is written twice and an array that is too long are refused. -/
def record? (names : List String) : Json → Option (List (Option Json))
  | .object members =>
      let written := members.filter fun member => names.contains member.1
      if (written.map Prod.fst).Nodup then
        some (names.map fun name => Keyed.find? name written)
      else none
  | .array items =>
      if items.length ≤ names.length then
        some (items.map some ++ List.replicate (names.length - items.length) none)
      else none
  | _ => none

end Json

end MessageBlocks
