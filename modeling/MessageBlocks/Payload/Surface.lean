import MessageBlocks.Payload.Component

/-!
# Blocks and surfaces

A surface is what the client shows: a message, a modal view or a home view. All
of them are made of blocks.
-/

namespace MessageBlocks

/-- An image beside a section or among the elements of a context. -/
structure ImageElement where
  url : String
  alt : String
  deriving DecidableEq, Repr

def ImageElement.fields (image : ImageElement) : List (String × Option Json) :=
  [("type", some (.string "image")), ("image_url", some (.string image.url)),
    ("alt_text", some (.string image.alt))]

/-- What stands beside the text of a section. -/
inductive Accessory where
  | image (image : ImageElement)
  | component (component : Component)
  deriving DecidableEq, Repr

def Accessory.toJson : Accessory → Json
  | image picture => .ofFields picture.fields
  | component part => part.toJson

/-- An element of a context. -/
inductive ContextElement where
  | image (image : ImageElement)
  | text (text : TextObject)
  deriving DecidableEq, Repr

/-- The JSON form of an element of a context. -/
def ContextElement.toJson : ContextElement → Json
  | image picture => .ofFields picture.fields
  | text content => content.toJson

/-- The content of a block. -/
inductive BlockContent where
  | sectionText (text : Option TextObject) (fields : List TextObject)
      (accessory : Option Accessory)
  | divider
  | image (image : ImageElement) (title : Option String)
  | header (text : String)
  | actions (components : List Component)
  | context (elements : List ContextElement)
  | input (label : String) (component : Option Component) (hint : Option String)
      (isOptional dispatchAction : Option Bool)
  | file (externalId source : String)
  deriving DecidableEq, Repr

namespace BlockContent

/-- The fields of a block that are its own. -/
def fields : BlockContent → List (String × Option Json)
  | sectionText text fields accessory =>
      [("type", some (.string "section")), ("text", text.map TextObject.toJson),
        ("fields", if fields.isEmpty then none else some (.array (fields.map TextObject.toJson))),
        ("accessory", accessory.map Accessory.toJson)]
  | divider => [("type", some (.string "divider"))]
  | image picture title => picture.fields ++ [("title", plainField title)]
  | header text => [("type", some (.string "header")), ("text", plainField (some text))]
  | actions components =>
      [("type", some (.string "actions")),
        ("elements", some (.array (components.map Component.toJson)))]
  | context elements =>
      [("type", some (.string "context")),
        ("elements", some (.array (elements.map ContextElement.toJson)))]
  | input label component hint isOptional dispatchAction =>
      [("type", some (.string "input")), ("label", plainField (some label)),
        ("element", component.map Component.toJson), ("hint", plainField hint),
        ("optional", isOptional.map .bool), ("dispatch_action", dispatchAction.map .bool)]
  | file externalId source =>
      [("type", some (.string "file")), ("external_id", some (.string externalId)),
        ("source", some (.string source))]

end BlockContent

/-- A block with the name by which it can be referred to. -/
structure Block where
  content : BlockContent
  id : Option String
  deriving DecidableEq, Repr

def Block.toJson (block : Block) : Json :=
  .ofFields (block.content.fields ++ [("block_id", block.id.map .string)])

/-- What views of both kinds carry for the program behind them. -/
structure ViewData where
  callbackId : Option String
  privateMetadata : Option String
  externalId : Option String
  deriving DecidableEq, Repr

def ViewData.fields (data : ViewData) : List (String × Option Json) :=
  [("callback_id", data.callbackId.map .string),
    ("private_metadata", data.privateMetadata.map .string),
    ("external_id", data.externalId.map .string)]

/-- What the client shows. -/
inductive Surface where
  | message (blocks : List Block)
  | modal (title : String) (blocks : List Block) (submit close : Option String)
      (clearOnClose notifyOnClose : Option Bool) (data : ViewData)
  | home (blocks : List Block) (data : ViewData)
  deriving DecidableEq, Repr

namespace Surface

def blocks : Surface → List Block
  | message blocks | modal _ blocks _ _ _ _ _ | home blocks _ => blocks

/-- The JSON form of a surface: an array for a message, an object for a view. -/
def toJson : Surface → Json
  | message blocks => .array (blocks.map Block.toJson)
  | modal title blocks submit close clearOnClose notifyOnClose data =>
      .ofFields
        ([("type", some (.string "modal")), ("title", plainField (some title)),
          ("blocks", some (.array (blocks.map Block.toJson))), ("submit", plainField submit),
          ("close", plainField close), ("clear_on_close", clearOnClose.map .bool),
          ("notify_on_close", notifyOnClose.map .bool)] ++ data.fields)
  | home blocks data =>
      .ofFields
        ([("type", some (.string "home")), ("blocks", some (.array (blocks.map Block.toJson)))] ++
          data.fields)

end Surface

end MessageBlocks
