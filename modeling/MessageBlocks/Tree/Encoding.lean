import MessageBlocks.Json.Reader
import MessageBlocks.Tree.Element

/-!
# Trees as JSON

An element is written as an object with `type`, and with `attrs` and `children`
unless they are empty; text is a string and scalars are themselves. An element
may also be read from the array of these three fields.
-/

namespace MessageBlocks

namespace AttributeValue

/-- The JSON form of a value. A number without a finite value is null. -/
def toJson : AttributeValue → Json
  | .null => .null
  | .bool value => .bool value
  | .number value => if value.isFinite then .float value else .null
  | .string value => .string value

def ofJson? : Json → Option AttributeValue
  | .null => some .null
  | .bool value => some (.bool value)
  | .integer value => some (.number (Float.ofInt value))
  | .float value => some (.number value)
  | .string value => some (.string value)
  | _ => none

end AttributeValue

namespace Attributes

def toJson (attributes : Attributes) : Json :=
  .object (attributes.entries.map fun entry => (entry.1, entry.2.toJson))

/-- The attributes that an object stands for. Of repeated names the last counts. -/
def ofJson? : Json → Option Attributes
  | .object members =>
      (members.mapM fun member => (AttributeValue.ofJson? member.2).map (member.1, ·)).map ofList
  | _ => none

end Attributes

mutual

def Node.toJson : Node → Json
  | .text content => .string content
  | .element element => Element.toJson element

def Element.toJson : Element → Json
  | ⟨kind, attributes, children⟩ =>
      .object
        ((if attributes.entries.isEmpty then [] else [("attrs", attributes.toJson)]) ++
          (if children.isEmpty then [] else [("children", .array (Node.toJsons children))]) ++
            [("type", .string kind)])

def Node.toJsons : List Node → List Json
  | [] => []
  | node :: rest => Node.toJson node :: Node.toJsons rest

end

/-- The names of the fields of an element, in the order of its array form. -/
def Element.fieldNames : List String :=
  ["type", "attrs", "children"]

/-- An element from its fields, with its children read already. -/
def Element.ofFields? (fields : Option (List (Option Json))) (children : Option (List Node)) :
    Option Element := do
  let [some (.string kind), attributes, _] ← fields | none
  let attributes ←
    match attributes with
    | some attributes => Attributes.ofJson? attributes
    | none => some ∅
  return ⟨kind, attributes, ← children⟩

mutual

def Node.ofJson? : Json → Option Node
  | .string content => some (.text content)
  | .object members =>
      (Element.ofFields? ((Json.object members).record? Element.fieldNames)
        (Node.ofMembers? members)).map .element
  | .array items =>
      (Element.ofFields? ((Json.array items).record? Element.fieldNames)
        (Node.ofTail? items)).map .element
  | _ => none

/-- The children among the members of an element, none if they are not written. -/
def Node.ofMembers? : List (String × Json) → Option (List Node)
  | [] => some []
  | (name, .array items) :: rest =>
      if name = "children" then Node.ofItems? items else Node.ofMembers? rest
  | (name, _) :: rest => if name = "children" then none else Node.ofMembers? rest

/-- The children at the end of the array form of an element. -/
def Node.ofTail? : List Json → Option (List Node)
  | [_, _, .array items] => Node.ofItems? items
  | [_, _, _] => none
  | _ => some []

/-- The children that the items of an array stand for. Every part of a child has
to be readable, also where it means nothing. -/
def Node.ofItems? : List Json → Option (List Node)
  | [] => some []
  | item :: rest => do
      if !item.isReadable then none
      let node ← Node.ofJson? item
      let nodes ← Node.ofItems? rest
      return node :: nodes

end

def Element.ofJson? (value : Json) : Option Element :=
  (Node.ofJson? value).bind Node.element?

def Element.read? (text : String) : Option Element :=
  (Json.read? text).bind Element.ofJson?

/-- Read a list of nodes from a JSON value. -/
def Node.listOfJson? (value : Json) : Option (List Node) :=
  value.items?.bind Node.ofItems?

end MessageBlocks
