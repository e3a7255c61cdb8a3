import MessageBlocks.Compile.Component
import MessageBlocks.Payload.Surface

/-!
# Blocks of a tree

The block that a layout element stands for, and the surface of a whole tree.
Compilation asks for no valid tree: elements that are no blocks are left out.
-/

namespace MessageBlocks

/-- A part of a context: an image, explicit markup, or a run of other nodes. -/
inductive ContextSegment where
  | image (element : Element)
  | explicit (element : Element)
  | run (nodes : List Node)

namespace Node

/-- The segment that a child of a context is by itself. -/
def segment? : Node → Option ContextSegment
  | .text _ => none
  | .element child =>
      match child.tag? with
      | some .image => some (.image child)
      | some .mrkdwn => some (.explicit child)
      | _ => none

/-- The segments of the children of a context, where `pending` is the run that
has been read before them. -/
def segments (pending : List Node) : List Node → List ContextSegment
  | [] => [.run pending]
  | node :: rest =>
      match node.segment? with
      | some segment => .run pending :: segment :: segments [] rest
      | none => segments (pending ++ [node]) rest

end Node

namespace Element

variable {W : Type} [Width W]

def image (element : Element) : ImageElement where
  url := (element.literal? "src").getD ""
  alt := (element.literal? "alt").getD ""

/-- The text of a section: its explicit markup, or else its own markup unless that
is empty. -/
def sectionText? (element : Element) : Query W (Option TextObject) :=
  match (element.childrenOf .mrkdwn).head? with
  | some explicit => some <$> explicit.explicitText
  | none => do
      let text ← element.mrkdwn
      return if text.isEmpty then none else some (.mrkdwn text none)

def isAccessory (element : Element) : Bool :=
  element.tag?.any fun tag => tag == .image || tag.isInteractive

def accessory? (element : Element) : Query W (Option Accessory) :=
  if element.tag? = some .image then pure (some (.image element.image))
  else do
    let component ← element.component?
    return component.map .component

def sectionContent (element : Element) : Query W BlockContent := do
  let text ← element.sectionText?
  let fields ← (element.childrenOf .field).mapM mrkdwn
  let accessory ←
    match element.elements.find? isAccessory with
    | some child => child.accessory?
    | none => pure none
  return .sectionText text (fields.map fun field => .mrkdwn field none) accessory

end Element

namespace ContextSegment

variable {W : Type} [Width W]

/-- The element of a context that a segment stands for. A run without text has
none. -/
def element? : ContextSegment → Query W (Option ContextElement)
  | .image child => pure (some (.image child.image))
  | .explicit child => (fun text => some (.text text)) <$> child.explicitText
  | .run nodes => do
      let text ← Markup.render (Node.markup nodes)
      return if text.isEmpty then none else some (.text (.mrkdwn (String.ofList text) none))

/-- The elements of a context that segments stand for. -/
def elements : List ContextSegment → Query W (List ContextElement)
  | [] => pure []
  | segment :: rest => do
      let element ← segment.element?
      let following ← elements rest
      return element.toList ++ following

end ContextSegment

namespace Element

variable {W : Type} [Width W]

def contextContent (element : Element) : Query W BlockContent :=
  BlockContent.context <$> ContextSegment.elements (Node.segments [] element.children)

/-- The content of an input. Its component is the first interactive child. -/
def inputContent (element : Element) : Query W BlockContent := do
  let component ←
    match element.elements.find? (·.tag?.any Tag.isInteractive) with
    | some child => child.component?
    | none => pure none
  return .input ((element.literal? "label").getD "") component (element.literal? "hint")
    (element.bool? "optional") (element.bool? "dispatchAction")

/-- The content of the block that an element with a tag stands for. -/
def blockContent? (element : Element) : Tag → Option (Query W BlockContent)
  | .sectionBlock => some element.sectionContent
  | .divider => some (pure .divider)
  | .image => some (pure (.image element.image (element.literal? "title")))
  | .header => some (pure (.header element.plainText))
  | .actions => some (BlockContent.actions <$> components element.elements)
  | .context => some element.contextContent
  | .input => some element.inputContent
  | .file =>
      some (pure (.file ((element.literal? "externalId").getD "")
        ((element.literal? "source").getD "remote")))
  | _ => none

def block? (element : Element) : Query W (Option Block) :=
  match element.tag?.bind element.blockContent? with
  | none => pure none
  | some content => do
      let content ← content
      return some ⟨content, element.blockId?⟩

def blocksOf : List Element → Query W (List Block)
  | [] => pure []
  | element :: rest => do
      let block ← element.block?
      let following ← blocksOf rest
      return block.toList ++ following

def blocks (element : Element) : Query W (List Block) :=
  blocksOf element.elements

def viewData (element : Element) : ViewData where
  callbackId := element.literal? "callbackId"
  privateMetadata := element.literal? "privateMetadata"
  externalId := element.literal? "externalId"

/-- The surface that a tree stands for. A root that is no view is a message. -/
def surface (root : Element) : Query W Surface := do
  let blocks ← root.blocks
  match root.tag? with
  | some .modal =>
      return .modal ((root.literal? "title").getD "") blocks (root.literal? "submit")
        (root.literal? "close") (root.bool? "clearOnClose") (root.bool? "notifyOnClose")
        root.viewData
  | some .home => return .home blocks root.viewData
  | _ => return .message blocks

end Element

end MessageBlocks
