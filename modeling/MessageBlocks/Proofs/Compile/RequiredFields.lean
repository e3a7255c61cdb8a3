import MessageBlocks.Proofs.Compile.Aliases
import MessageBlocks.Proofs.Compile.Conformance

/-!
# Required fields

For each type of block and view there are fields that the client asks for. Those that are read from
attributes have a default, and those that are made of children are lists or texts that may be empty.
The one exception is an input. It is made of one component, which the grammar allows as a child but
does not ask for, so an input without child elements is accepted and lacks its `element`.
-/

namespace MessageBlocks

open Json

/-- The fields that the client asks for in a block or a view with a type name. -/
def requiredFields : String → List String
  | "modal" => ["title", "blocks"]
  | "home" => ["blocks"]
  | "image" => ["image_url", "alt_text"]
  | "header" => ["text"]
  | "context" | "actions" => ["elements"]
  | "input" => ["label", "element"]
  | "file" => ["external_id", "source"]
  | _ => []

/-- The required fields that a block or a view does not have. -/
def Json.missingFields (value : Json) : List String :=
  match (value.member? "type").bind string? with
  | some name => (requiredFields name).filter fun field => (value.member? field).isNone
  | none => ["type"]

/-- The required fields that a block lacks: the component of an input may be absent. -/
def BlockContent.missingFields : BlockContent → List String
  | input _ none _ _ _ => ["element"]
  | _ => []

theorem Block.missingFields_toJson (block : Block) :
    block.toJson.missingFields = block.content.missingFields := by
  obtain ⟨content, id⟩ := block
  cases content with
  | input label component hint isOptional dispatchAction =>
      cases component <;>
        simp [Json.missingFields, Block.member?_toJson, BlockContent.fields, field?, string?,
          requiredFields, BlockContent.missingFields, plainField]
  | _ =>
      simp [Json.missingFields, Block.member?_toJson, BlockContent.fields, field?, string?,
        requiredFields, BlockContent.missingFields, plainField, ImageElement.fields]

/-- A view has all required fields, since its title has a default. -/
theorem Surface.missingFields_toJson {surface : Surface}
    (notMessage : ∀ blocks, surface ≠ .message blocks) : surface.toJson.missingFields = [] := by
  cases surface with
  | message blocks => exact absurd rfl (notMessage blocks)
  | modal title blocks submit close clearOnClose notifyOnClose data =>
      simp [Json.missingFields, toJson, member?_ofFields, field?, string?, requiredFields,
        ViewData.fields, plainField]
  | home blocks data =>
      simp [Json.missingFields, toJson, member?_ofFields, field?, string?, requiredFields,
        ViewData.fields]

namespace Element

variable {W : Type} [Width W] {root element : Element}

/-- The fields that are missing from the block of an element: an input without child elements has
no component. -/
def missingFields (element : Element) : List String :=
  if element.tag? = some .input ∧ element.elements = [] then ["element"] else []

/-- The first child element of an input is its component. -/
theorem missingFields_inputContent (engine : Engine W) (tagged : element.tag? = some .input)
    (obeys : element.Obeys Tag.input.rule) :
    (element.inputContent.answer engine).missingFields = element.missingFields := by
  rw [inputContent_answer, missingFields]
  cases children : element.elements with
  | nil => simp [tagged, BlockContent.missingFields]
  | cons child rest =>
      have interactive : ∀ tag ∈ Tag.input.rule.children, tag.isInteractive = true := by decide
      have member : child ∈ element.elements := by
        rw [children]
        exact List.mem_cons_self
      obtain ⟨tag, allowed, childTagged⟩ := obeys.childTag member
      obtain ⟨component, found⟩ := component?_isSome engine childTagged (interactive tag allowed)
      simp [childTagged, interactive tag allowed, found, BlockContent.missingFields]

theorem missingFields_content (engine : Engine W) {tag : Tag} {content : Query W BlockContent}
    (tagged : element.tag? = some tag) (obeys : element.Obeys tag.rule)
    (found : element.blockContent? tag = some content) :
    (content.answer engine).missingFields = element.missingFields := by
  have complete (notInput : tag ≠ .input) : element.missingFields = [] := by
    rw [missingFields, tagged, if_neg (by simp [notInput])]
  cases tag
  case input =>
      obtain rfl := Option.some.inj found
      exact missingFields_inputContent engine tagged obeys
  case sectionBlock =>
      obtain rfl := Option.some.inj found
      rw [sectionContent_answer, complete (by decide)]
      rfl
  case context =>
      obtain rfl := Option.some.inj found
      rw [contextContent, Query.answer_map, complete (by decide)]
      rfl
  case actions =>
      obtain rfl := Option.some.inj found
      rw [Query.answer_map, complete (by decide)]
      rfl
  all_goals cases found
  all_goals
    rw [complete (by decide)]
    rfl

theorem surface_ne_message (engine : Engine W) (grammatical : Grammatical root)
    (notBlocks : root.tag? ≠ some .blocks) (blocks : List Block) :
    root.surface.answer engine ≠ .message blocks := by
  obtain ⟨tag, among, tagged⟩ := grammatical.rootTag
  rw [tagged, ne_eq, Option.some.injEq] at notBlocks
  rw [Element.surface, Query.answer_bind, tagged]
  simp only [Grammar.surfaces, List.mem_cons, List.not_mem_nil, or_false] at among
  intro same
  rcases among with rfl | rfl | rfl
  · exact notBlocks rfl
  · cases same
  · cases same

/-- Of the fields that the client asks for, the blocks of an accepted tree lack one: the component
of an input that has no child element. A view lacks none. -/
theorem payload_missingFields (accepted : root.validate = .ok ()) (engine : Engine W) :
    ∃ payload, (root.render.answer engine).json = .ok payload ∧
      (root.tag? ≠ some .blocks → payload.missingFields = []) ∧
      List.Forall₂ (fun child block => block.missingFields = child.missingFields)
        root.elements payload.payloadBlocks := by
  have grammatical := Grammatical.of_validate accepted
  refine ⟨(root.surface.answer engine).toJson, ?_, ?_, ?_⟩
  · rw [render_of_ok accepted, Query.answer_map]
    rfl
  · intro notBlocks
    exact Surface.missingFields_toJson (surface_ne_message engine grammatical notBlocks)
  · rw [Surface.payloadBlocks_toJson, surface_blocks, List.forall₂_map_right_iff]
    apply forall₂_filterMap
    intro child member
    obtain ⟨tag, layout, tagged⟩ := grammatical.childLayout child member
    have obeys := grammatical.obeys_of_tag (within_of_mem_elements member) tagged
    obtain ⟨block, found, -⟩ := form_block engine tagged layout obeys
    obtain ⟨other, content, otherTagged, contents, same⟩ := block?_answer found
    obtain rfl : tag = other := Option.some.inj (tagged.symm.trans otherTagged)
    refine ⟨block, found, ?_⟩
    rw [Block.missingFields_toJson, same]
    exact missingFields_content engine tagged obeys contents

end Element

/-- A message with an image that has no source, an input and an input without a component. -/
def sparseMessage : Element :=
  (Element.ofKind "Blocks").append
    [.element (Element.ofKind "Image"),
     .element ((Element.ofKind "Input").append [.element (Element.ofKind "DatePicker")]),
     .element (Element.ofKind "Input")]

/-- The checker accepts the message, and only its last block lacks a required field. -/
theorem sparseMessage_missingFields :
    sparseMessage.validate = .ok () ∧
      ∃ payload, (sparseMessage.render.answer Engine.reference).json = .ok payload ∧
        payload.payloadBlocks.map Json.missingFields = [[], [], ["element"]] := by
  have accepted : sparseMessage.validate = .ok () := by rfl
  obtain ⟨payload, found, -, missing⟩ :=
    Element.payload_missingFields accepted Engine.reference
  refine ⟨accepted, payload, found, ?_⟩
  rw [map_eq_of_forall₂ missing fun _ _ same => same]
  decide

end MessageBlocks
