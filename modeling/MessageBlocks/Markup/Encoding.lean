import MessageBlocks.Json.Reader
import MessageBlocks.Markup.Basic
import MessageBlocks.Number.Binary

/-!
# Markup as JSON

A node is written as an object whose only member is named for its constructor;
nodes without content may be the bare name. Records of a node, such as the target
and the children of a link, are objects, and an array of their fields is read as
well. Absent optional fields are written as null.
-/

namespace MessageBlocks

namespace Json

def int64? : Json → Option Int64
  | .integer value => if Number.fitsInt64 value then some (Int64.ofInt value) else none
  | _ => none

def optional? {α : Type} (decode : Json → Option α) : Option Json → Option (Option α)
  | none | some .null => some none
  | some value => (decode value).map some

def ofOption {α : Type} (encode : α → Json) : Option α → Json
  | none => .null
  | some value => encode value

def ofInt64 (value : Int64) : Json :=
  .integer value.toInt

def single (name : String) (value : Json) : Json :=
  .object [(name, value)]

end Json

namespace Numbering

def name : Numbering → String
  | .decimal => "Decimal"
  | .lowerAlpha => "LowerAlpha"
  | .upperAlpha => "UpperAlpha"
  | .lowerRoman => "LowerRoman"
  | .upperRoman => "UpperRoman"

def named? : String → Option Numbering
  | "Decimal" => some .decimal
  | "LowerAlpha" => some .lowerAlpha
  | "UpperAlpha" => some .upperAlpha
  | "LowerRoman" => some .lowerRoman
  | "UpperRoman" => some .upperRoman
  | _ => none

def ofJson? : Json → Option Numbering
  | .string name => named? name
  | .object [(name, .null)] => named? name
  | _ => none

end Numbering

namespace ListKind

/-- The JSON form of the kind of a list. -/
def toJson : ListKind → Json
  | .unordered => .string "Unordered"
  | .ordered numbering start =>
      .single "Ordered"
        (.object [("numbering", .string numbering.name), ("start", .ofInt64 start)])

/-- The kind of a list that a value stands for. -/
def ofJson? : Json → Option ListKind
  | .string "Unordered" => some .unordered
  | .object [("Unordered", .null)] => some .unordered
  | .object [("Ordered", value)] => do
      let [some numbering, some start] ← value.record? ["numbering", "start"] | none
      return .ordered (← Numbering.ofJson? numbering) (← start.int64?)
  | _ => none

end ListKind

mutual

def Markup.toJson : Markup → Json
  | .text content => .single "Text" (.string content)
  | .bold children => .single "Bold" (.array (Markup.toJsons children))
  | .italic children => .single "Italic" (.array (Markup.toJsons children))
  | .strike children => .single "Strike" (.array (Markup.toJsons children))
  | .code children => .single "Code" (.array (Markup.toJsons children))
  | .link target children =>
      .single "Link"
        (.object [("children", .array (Markup.toJsons children)),
          ("href", .ofOption .string target)])
  | .time timestamp fallback format =>
      .single "Time"
        (.object [("fallback", .ofOption .string fallback),
          ("format", .array (Markup.toJsons format)),
          ("timestamp", .ofOption .ofInt64 timestamp)])
  | .lineBreak => .string "LineBreak"
  | .paragraph children => .single "Paragraph" (.array (Markup.toJsons children))
  | .blockquote children => .single "Blockquote" (.array (Markup.toJsons children))
  | .preformatted children => .single "Preformatted" (.array (Markup.toJsons children))
  | .list kind items =>
      .single "List"
        (.object [("items", .array (ListItem.toJsons items)), ("kind", kind.toJson)])

def Markup.toJsons : List Markup → List Json
  | [] => []
  | node :: rest => Markup.toJson node :: Markup.toJsons rest

def ListItem.toJsons : List ListItem → List Json
  | [] => []
  | ⟨number, children⟩ :: rest =>
      .object [("children", .array (Markup.toJsons children)),
        ("value", .ofOption .ofInt64 number)] :: ListItem.toJsons rest

end

namespace Markup

/-- A node whose content is a list of nodes. -/
def ofContent? (name : String) (children : Option (List Markup)) : Option Markup :=
  match name with
  | "Bold" => children.map .bold
  | "Italic" => children.map .italic
  | "Strike" => children.map .strike
  | "Code" => children.map .code
  | "Paragraph" => children.map .paragraph
  | "Blockquote" => children.map .blockquote
  | "Preformatted" => children.map .preformatted
  | _ => none

def linkFields : List String :=
  ["href", "children"]

def timeFields : List String :=
  ["timestamp", "fallback", "format"]

def listFields : List String :=
  ["kind", "items"]

/-- A link from its fields, with its children read already. -/
def linkOfFields? (fields : Option (List (Option Json))) (children : Option (List Markup)) :
    Option Markup := do
  let [target, some _] ← fields | none
  return .link (← Json.optional? Json.string? target) (← children)

/-- A time from its fields, with its format read already. -/
def timeOfFields? (fields : Option (List (Option Json))) (format : Option (List Markup)) :
    Option Markup := do
  let [timestamp, fallback, some _] ← fields | none
  return .time (← Json.optional? Json.int64? timestamp) (← Json.optional? Json.string? fallback)
    (← format)

/-- A list from its fields, with its items read already. -/
def listOfFields? (fields : Option (List (Option Json))) (items : Option (List ListItem)) :
    Option Markup := do
  let [some kind, some _] ← fields | none
  return .list (← ListKind.ofJson? kind) (← items)

end Markup

namespace ListItem

/-- The names of the fields of a list item. -/
def fieldNames : List String :=
  ["value", "children"]

/-- A list item from its fields, with its children read already. -/
def ofFields? (fields : Option (List (Option Json))) (children : Option (List Markup)) :
    Option ListItem := do
  let [number, some _] ← fields | none
  return ⟨← Json.optional? Json.int64? number, ← children⟩

end ListItem

mutual

def Markup.ofJson? : Json → Option Markup
  | .string name => if name = "LineBreak" then some .lineBreak else none
  | .object [(name, value)] => Markup.ofVariant? name value
  | _ => none

/-- The node with a given constructor name and content. -/
def Markup.ofVariant? (name : String) : Json → Option Markup
  | .null => if name = "LineBreak" then some .lineBreak else none
  | .string content => if name = "Text" then some (.text content) else none
  | .array items =>
      match name with
      | "Link" =>
          Markup.linkOfFields? ((Json.array items).record? Markup.linkFields)
            (Markup.ofNth? 1 items)
      | "Time" =>
          Markup.timeOfFields? ((Json.array items).record? Markup.timeFields)
            (Markup.ofNth? 2 items)
      | "List" =>
          Markup.listOfFields? ((Json.array items).record? Markup.listFields)
            (ListItem.ofNth? 1 items)
      | name => Markup.ofContent? name (Markup.ofItems? items)
  | .object members =>
      match name with
      | "Link" =>
          Markup.linkOfFields? ((Json.object members).record? Markup.linkFields)
            (Markup.ofMember? "children" members)
      | "Time" =>
          Markup.timeOfFields? ((Json.object members).record? Markup.timeFields)
            (Markup.ofMember? "format" members)
      | "List" =>
          Markup.listOfFields? ((Json.object members).record? Markup.listFields)
            (ListItem.ofMember? "items" members)
      | _ => none
  | _ => none

/-- The nodes in the member of a given name. -/
def Markup.ofMember? (field : String) : List (String × Json) → Option (List Markup)
  | [] => none
  | (name, .array items) :: rest =>
      if name = field then Markup.ofItems? items else Markup.ofMember? field rest
  | (name, _) :: rest => if name = field then none else Markup.ofMember? field rest

/-- The nodes in the item of an array at a given position. -/
def Markup.ofNth? : Nat → List Json → Option (List Markup)
  | 0, .array items :: _ => Markup.ofItems? items
  | position + 1, _ :: rest => Markup.ofNth? position rest
  | _, _ => none

/-- The nodes that the items of an array stand for. -/
def Markup.ofItems? : List Json → Option (List Markup)
  | [] => some []
  | item :: rest => do
      let node ← Markup.ofJson? item
      let nodes ← Markup.ofItems? rest
      return node :: nodes

def ListItem.ofJson? : Json → Option ListItem
  | .array items =>
      ListItem.ofFields? ((Json.array items).record? ListItem.fieldNames) (Markup.ofNth? 1 items)
  | .object members =>
      ListItem.ofFields? ((Json.object members).record? ListItem.fieldNames)
        (Markup.ofMember? "children" members)
  | _ => none

/-- The list items in the member of a given name. -/
def ListItem.ofMember? (field : String) : List (String × Json) → Option (List ListItem)
  | [] => none
  | (name, .array items) :: rest =>
      if name = field then ListItem.ofItems? items else ListItem.ofMember? field rest
  | (name, _) :: rest => if name = field then none else ListItem.ofMember? field rest

/-- The list items in the item of an array at a given position. -/
def ListItem.ofNth? : Nat → List Json → Option (List ListItem)
  | 0, .array items :: _ => ListItem.ofItems? items
  | position + 1, _ :: rest => ListItem.ofNth? position rest
  | _, _ => none

/-- The list items that the items of an array stand for. -/
def ListItem.ofItems? : List Json → Option (List ListItem)
  | [] => some []
  | item :: rest => do
      let listItem ← ListItem.ofJson? item
      let listItems ← ListItem.ofItems? rest
      return listItem :: listItems

end

/-- Read a list of nodes from a JSON value. -/
def Markup.listOfJson? (value : Json) : Option (List Markup) :=
  value.items?.bind Markup.ofItems?

end MessageBlocks
