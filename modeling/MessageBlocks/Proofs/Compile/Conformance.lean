import MessageBlocks.Layout.Reference
import MessageBlocks.Proofs.Compile.Provenance
import MessageBlocks.Proofs.Grammar.Tags
import MessageBlocks.Proofs.Lists

/-!
# Conformance of payloads

The JSON form of the surface of an accepted tree has the form that the chat client
asks for. A payload is a message or a view, and its blocks stand for the child
elements of the root one by one, each of them in the form of its tag. On top of
that the laws of regular payloads hold of every part.
-/

namespace MessageBlocks

open Json

def interactiveTypes : List String :=
  ["button", "static_select", "multi_static_select", "external_select", "multi_external_select",
    "users_select", "multi_users_select", "conversations_select", "multi_conversations_select",
    "channels_select", "multi_channels_select", "overflow", "datepicker", "timepicker",
    "checkboxes", "radio_buttons", "plain_text_input"]

/-- The form of the block that stands for an element. -/
inductive BlockForm (element : Element) (block : Json) : Prop where
  | sectionBlock (tag : element.tag? = some .sectionBlock) (typed : block.HasType ["section"])
      (accessory : ∀ beside, block.member? "accessory" = some beside →
        beside.HasType ("image" :: interactiveTypes.erase "plain_text_input"))
  | divider (tag : element.tag? = some .divider) (typed : block.HasType ["divider"])
  | image (tag : element.tag? = some .image) (typed : block.HasType ["image"])
  | header (tag : element.tag? = some .header) (typed : block.HasType ["header"])
  | actions (tag : element.tag? = some .actions) (typed : block.HasType ["actions"])
      (parts : List Json) (found : block.member? "elements" = some (.array parts))
      (count : parts.length = element.elements.length)
      (interactive : ∀ part ∈ parts, part.HasType (interactiveTypes.erase "plain_text_input"))
  | context (tag : element.tag? = some .context) (typed : block.HasType ["context"])
      (parts : List Json) (found : block.member? "elements" = some (.array parts))
      (shown : ∀ part ∈ parts, part.HasType ["image", "mrkdwn"])
  | input (tag : element.tag? = some .input) (typed : block.HasType ["input"])
      (component : ∀ part, block.member? "element" = some part →
        part.HasType ((interactiveTypes.erase "button").erase "overflow"))
  | file (tag : element.tag? = some .file) (typed : block.HasType ["file"])
      (source : block.member? "source" = some (.string "remote"))

/-- The form of the payload of a tree: the blocks of a message, or a view with its blocks
and without files. -/
inductive PayloadForm (root : Element) : Json → Prop where
  | message {blocks : List Json} (tag : root.tag? = some .blocks)
      (forms : List.Forall₂ BlockForm root.elements blocks) : PayloadForm root (.array blocks)
  | view {payload : Json} {name : String} {blocks : List Json}
      (tag : (root.tag? = some .modal ∧ name = "modal") ∨ (root.tag? = some .home ∧ name = "home"))
      (typed : payload.HasType [name]) (found : payload.member? "blocks" = some (.array blocks))
      (forms : List.Forall₂ BlockForm root.elements blocks)
      (noFile : ∀ block ∈ blocks, ¬ block.HasType ["file"]) : PayloadForm root payload

variable {W : Type} [Width W]

/-- The type names of the objects that an interactive tag is compiled to. -/
def Tag.objectTypes : Tag → List String
  | .button => ["button"]
  | .select => ["static_select", "multi_static_select"]
  | .externalSelect => ["external_select", "multi_external_select"]
  | .usersSelect => ["users_select", "multi_users_select"]
  | .conversationsSelect => ["conversations_select", "multi_conversations_select"]
  | .channelsSelect => ["channels_select", "multi_channels_select"]
  | .overflow => ["overflow"]
  | .datePicker => ["datepicker"]
  | .timePicker => ["timepicker"]
  | .checkboxGroup => ["checkboxes"]
  | .radioButtonGroup => ["radio_buttons"]
  | .textarea => ["plain_text_input"]
  | _ => []

namespace Element

variable {root element child : Element} {engine : Engine W}

theorem typeName_selection {α : Type} (element : Element) (initial : List α) (name : String) :
    (element.selection initial).typeName name ∈ [name, "multi_" ++ name] := by
  rw [selection]
  split <;> simp [Selection.typeName]

theorem typeName_control {tag : Tag} {control : Query W Control}
    (found : element.control? tag = some control) :
    (control.answer engine).typeName ∈ tag.objectTypes := by
  cases tag
  case checkboxGroup =>
      obtain rfl := Option.some.inj found
      rw [checkboxes, Query.answer_bind]
      exact List.mem_singleton.2 rfl
  case radioButtonGroup =>
      obtain rfl := Option.some.inj found
      rw [radioButtons, Query.answer_bind]
      exact List.mem_singleton.2 rfl
  all_goals cases found
  case select => exact element.typeName_selection _ "static_select"
  case externalSelect => exact element.typeName_selection _ "external_select"
  case usersSelect => exact element.typeName_selection _ "users_select"
  case conversationsSelect => exact element.typeName_selection _ "conversations_select"
  case channelsSelect => exact element.typeName_selection _ "channels_select"
  all_goals exact List.mem_singleton.2 rfl

theorem hasType_component {tag : Tag} {component : Component} (tagged : element.tag? = some tag)
    (found : element.component?.answer engine = some component) :
    component.toJson.HasType tag.objectTypes := by
  obtain ⟨other, control, otherTagged, controls, same, -⟩ := component?_answer found
  rw [tagged, Option.some.injEq] at otherTagged
  subst otherTagged
  refine ⟨component.control.typeName, ?_, component.member?_type⟩
  rw [same]
  exact typeName_control controls

theorem component?_isSome (engine : Engine W) {tag : Tag} (tagged : element.tag? = some tag)
    (interactive : tag.isInteractive = true) :
    ∃ component, element.component?.answer engine = some component := by
  have hasControl : ∃ control : Query W Control, element.control? tag = some control := by
    cases tag <;> first | exact ⟨_, rfl⟩ | cases interactive
  obtain ⟨control, controls⟩ := hasControl
  exact ⟨_, component?_of_control tagged controls⟩

end Element

theorem Json.HasType.mono {value : Json} {names others : List String} (typed : value.HasType names)
    (among : ∀ name ∈ names, name ∈ others) : value.HasType others := by
  obtain ⟨name, member, found⟩ := typed
  exact ⟨name, among name member, found⟩

namespace Block

variable {content : BlockContent} {id : Option String}

theorem member?_toJson {name : String} (notId : name ≠ "block_id") :
    (Block.toJson ⟨content, id⟩).member? name = field? name content.fields := by
  rw [Block.toJson, member?_ofFields, field?_append]
  simp [field?, notId]

theorem hasType_toJson {name : String}
    (typed : field? "type" content.fields = some (.string name)) :
    (Block.toJson ⟨content, id⟩).HasType [name] := by
  refine ⟨name, List.mem_singleton.2 rfl, ?_⟩
  rw [member?_toJson (by decide), typed]

end Block

theorem BlockContent.field?_accessory (text : Option TextObject) (fields : List TextObject)
    (accessory : Option Accessory) :
    field? "accessory" (sectionText text fields accessory).fields =
      accessory.map Accessory.toJson := by
  simp [BlockContent.fields, field?]

theorem BlockContent.field?_element (label : String) (component : Option Component)
    (hint : Option String) (isOptional dispatchAction : Option Bool) :
    field? "element" (input label component hint isOptional dispatchAction).fields =
      component.map Component.toJson := by
  simp [BlockContent.fields, field?]

theorem hasType_image (image : ImageElement) : (ofFields image.fields).HasType ["image"] :=
  ⟨"image", List.mem_singleton.2 rfl, by simp [member?_ofFields, ImageElement.fields, field?]⟩

namespace Element

variable {root element child : Element} {rule : Rule} {engine : Engine W}

/-- Beside a section stands an image or a component that is no input for text. -/
theorem form_accessory (obeys : element.Obeys Tag.sectionBlock.rule) {accessory : Accessory}
    (member : child ∈ element.elements)
    (found : child.accessory?.answer engine = some accessory) :
    accessory.toJson.HasType ("image" :: interactiveTypes.erase "plain_text_input") := by
  rcases accessory?_answer found with rfl | ⟨component, rfl, present⟩
  · exact (hasType_image child.image).mono (by simp)
  · obtain ⟨tag, allowed, tagged⟩ := obeys.childTag member
    have outside : ∀ tag ∈ Tag.sectionBlock.rule.children, ∀ name ∈ tag.objectTypes,
        name ∈ "image" :: interactiveTypes.erase "plain_text_input" := by decide
    exact (hasType_component tagged present).mono (outside tag allowed)

theorem form_sectionBlock (engine : Engine W) (tagged : element.tag? = some .sectionBlock)
    (obeys : element.Obeys Tag.sectionBlock.rule) (id : Option String) :
    BlockForm element (Block.toJson ⟨element.sectionContent.answer engine, id⟩) := by
  rw [sectionContent_answer]
  apply BlockForm.sectionBlock tagged
  · exact Block.hasType_toJson (by simp [BlockContent.fields, field?])
  · intro beside found
    rw [Block.member?_toJson (by decide), BlockContent.field?_accessory] at found
    obtain ⟨accessory, present, rfl⟩ := Option.map_eq_some_iff.1 found
    obtain ⟨child, first, present⟩ := Option.bind_eq_some_iff.1 present
    exact form_accessory obeys (List.mem_of_find?_eq_some first) present

/-- All child elements for actions become components, none of them an input for text. -/
theorem form_actions (engine : Engine W) (tagged : element.tag? = some .actions)
    (obeys : element.Obeys Tag.actions.rule) (id : Option String) :
    BlockForm element
      (Block.toJson ⟨.actions ((components element.elements).answer engine), id⟩) := by
  have interactive : ∀ tag ∈ Tag.actions.rule.children, tag.isInteractive = true := by decide
  have outside : ∀ tag ∈ Tag.actions.rule.children, ∀ name ∈ tag.objectTypes,
      name ∈ interactiveTypes.erase "plain_text_input" := by decide
  have forms : List.Forall₂ (fun child component => child.component?.answer engine = some component)
      element.elements ((components element.elements).answer engine) := by
    rw [components_answer]
    apply forall₂_filterMap
    intro child member
    obtain ⟨tag, among, tagged⟩ := obeys.childTag member
    obtain ⟨component, found⟩ := component?_isSome engine tagged (interactive tag among)
    exact ⟨component, found, found⟩
  apply BlockForm.actions tagged (Block.hasType_toJson rfl) _ (Block.member?_toJson (by decide))
  · rw [List.length_map, forms.length_eq]
  · intro part member
    obtain ⟨component, componentMember, rfl⟩ := List.mem_map.1 member
    rw [components_answer, List.mem_filterMap] at componentMember
    obtain ⟨child, childMember, found⟩ := componentMember
    obtain ⟨tag, among, tagged⟩ := obeys.childTag childMember
    exact (hasType_component tagged found).mono (outside tag among)

theorem form_contextElement {segment : ContextSegment} {part : ContextElement}
    (found : segment.element?.answer engine = some part) :
    part.toJson.HasType ["image", "mrkdwn"] := by
  have marked (text : String) (verbatim : Option Bool) :
      (TextObject.mrkdwn text verbatim).toJson.HasType ["image", "mrkdwn"] :=
    ⟨"mrkdwn", by simp, by simp [TextObject.toJson, member?_ofFields, field?]⟩
  cases segment with
  | image child =>
      obtain rfl := Option.some.inj found
      exact (hasType_image child.image).mono (by simp)
  | explicit child =>
      rw [ContextSegment.element?, Query.answer_map, explicitText_answer] at found
      obtain rfl := Option.some.inj found
      exact marked _ _
  | run nodes =>
      rw [ContextSegment.element?, Query.answer_bind] at found
      split at found
      · cases found
      · obtain rfl := Option.some.inj found
        exact marked _ _

theorem form_context (engine : Engine W) (tagged : element.tag? = some .context)
    (id : Option String) :
    BlockForm element (Block.toJson ⟨element.contextContent.answer engine, id⟩) := by
  rw [contextContent, Query.answer_map, ContextSegment.elements_answer]
  apply BlockForm.context tagged (Block.hasType_toJson rfl) _ (Block.member?_toJson (by decide))
  intro part member
  obtain ⟨shown, shownMember, rfl⟩ := List.mem_map.1 member
  obtain ⟨segment, -, found⟩ := List.mem_filterMap.1 shownMember
  exact form_contextElement found

/-- The component of an input is neither a button nor an overflow menu. -/
theorem form_input (engine : Engine W) (tagged : element.tag? = some .input)
    (obeys : element.Obeys Tag.input.rule) (id : Option String) :
    BlockForm element (Block.toJson ⟨element.inputContent.answer engine, id⟩) := by
  have inside : ∀ tag ∈ Tag.input.rule.children, ∀ name ∈ tag.objectTypes,
      name ∈ (interactiveTypes.erase "button").erase "overflow" := by decide
  rw [inputContent_answer]
  apply BlockForm.input tagged
  · exact Block.hasType_toJson (by simp [BlockContent.fields, field?])
  · intro part found
    rw [Block.member?_toJson (by decide), BlockContent.field?_element] at found
    obtain ⟨component, present, rfl⟩ := Option.map_eq_some_iff.1 found
    obtain ⟨child, first, present⟩ := Option.bind_eq_some_iff.1 present
    obtain ⟨tag, allowed, childTagged⟩ := obeys.childTag (List.mem_of_find?_eq_some first)
    exact (hasType_component childTagged present).mono (inside tag allowed)

theorem form_file (tagged : element.tag? = some .file) (obeys : element.Obeys Tag.file.rule)
    (externalId : String) (id : Option String) :
    BlockForm element
      (Block.toJson ⟨.file externalId ((element.literal? "source").getD "remote"), id⟩) := by
  have remote : (element.literal? "source").getD "remote" = "remote" := by
    cases found : element.literal? "source" with
    | none => rfl
    | some source =>
        have declared : ("source", Allowed.oneOf ["remote"]) ∈ Tag.file.rule.attributes := by decide
        exact List.mem_singleton.1 (obeys.mem_literals declared found)
  apply BlockForm.file tagged
  · exact Block.hasType_toJson (by simp [BlockContent.fields, field?])
  · rw [remote, Block.member?_toJson (by decide)]
    rfl

/-- An element for a layout block has a block, and the block has the form of its tag. -/
theorem form_block (engine : Engine W) {tag : Tag} (tagged : element.tag? = some tag)
    (layout : tag ∈ Grammar.layoutBlocks) (obeys : element.Obeys tag.rule) :
    ∃ block, element.block?.answer engine = some block ∧ BlockForm element block.toJson := by
  simp only [Grammar.layoutBlocks, List.mem_cons, List.not_mem_nil, or_false] at layout
  rcases layout with rfl | rfl | rfl | rfl | rfl | rfl | rfl | rfl
  · exact ⟨_, block?_of_content tagged rfl, form_sectionBlock engine tagged obeys _⟩
  · exact ⟨_, block?_of_content tagged rfl, .divider tagged (Block.hasType_toJson rfl)⟩
  · exact ⟨_, block?_of_content tagged rfl, .image tagged (Block.hasType_toJson rfl)⟩
  · exact ⟨_, block?_of_content tagged rfl, .header tagged (Block.hasType_toJson rfl)⟩
  · refine ⟨_, block?_of_content tagged rfl, ?_⟩
    rw [Query.answer_map]
    exact form_actions engine tagged obeys _
  · exact ⟨_, block?_of_content tagged rfl, form_context engine tagged _⟩
  · exact ⟨_, block?_of_content tagged rfl, form_input engine tagged obeys _⟩
  · exact ⟨_, block?_of_content tagged rfl, form_file tagged obeys _ _⟩

/-- The blocks of a root stand for its child elements one by one. -/
theorem form_blocks (engine : Engine W) (obeys : root.Obeys rule)
    (layout : ∀ tag ∈ rule.children, tag ∈ Grammar.layoutBlocks)
    (below : ∀ child ∈ root.elements, ∀ tag, child.tag? = some tag → child.Obeys tag.rule) :
    List.Forall₂ BlockForm root.elements
      ((root.surface.answer engine).blocks.map Block.toJson) := by
  rw [surface_blocks, List.forall₂_map_right_iff]
  apply forall₂_filterMap
  intro child member
  obtain ⟨tag, allowed, tagged⟩ := obeys.childTag member
  exact form_block engine tagged (layout tag allowed) (below child member tag tagged)

theorem tag_of_file {block : Json} (form : BlockForm element block)
    (typed : block.HasType ["file"]) : element.tag? = some .file := by
  obtain ⟨name, member, file⟩ := typed
  obtain rfl := List.mem_singleton.1 member
  have other {name : String} (typed : block.HasType [name]) : name = "file" := by
    obtain ⟨found, member, same⟩ := typed
    rw [file] at same
    obtain rfl := List.mem_singleton.1 member
    simpa using same.symm
  cases form with
  | sectionBlock _ typed => exact absurd (other typed) (by decide)
  | divider _ typed => exact absurd (other typed) (by decide)
  | image _ typed => exact absurd (other typed) (by decide)
  | header _ typed => exact absurd (other typed) (by decide)
  | actions _ typed => exact absurd (other typed) (by decide)
  | context _ typed => exact absurd (other typed) (by decide)
  | input _ typed => exact absurd (other typed) (by decide)
  | file tag => exact tag

theorem noFile_of_forms {blocks : List Json} (obeys : root.Obeys rule)
    (forms : List.Forall₂ BlockForm root.elements blocks) (forbidden : Tag.file ∉ rule.children) :
    ∀ block ∈ blocks, ¬ block.HasType ["file"] := by
  intro block member typed
  obtain ⟨child, childMember, form⟩ := exists_of_mem_forall₂ forms member
  obtain ⟨tag, allowed, tagged⟩ := obeys.childTag childMember
  rw [tag_of_file form typed, Option.some.injEq] at tagged
  exact forbidden (tagged ▸ allowed)

theorem form_surface (engine : Engine W) (grammatical : Grammatical root) :
    PayloadForm root (root.surface.answer engine).toJson := by
  have below : ∀ child ∈ root.elements, ∀ tag, child.tag? = some tag → child.Obeys tag.rule :=
    fun child member tag tagged =>
      grammatical.obeys_of_tag (within_of_mem_elements member) tagged
  obtain ⟨tag, surface, tagged⟩ := grammatical.rootTag
  have obeys := grammatical.obeys_of_tag .root tagged
  have layout : ∀ tag ∈ Grammar.surfaces, ∀ child ∈ tag.rule.children,
      child ∈ Grammar.layoutBlocks := by decide
  have forms := form_blocks engine obeys (layout tag surface) below
  rw [Element.surface, Query.answer_bind, tagged] at forms ⊢
  simp only [Grammar.surfaces, List.mem_cons, List.not_mem_nil, or_false] at surface
  rcases surface with rfl | rfl | rfl
  · exact .message tagged forms
  · refine .view (.inl ⟨tagged, rfl⟩) ?_ ?_ forms (noFile_of_forms obeys forms (by decide))
    · exact ⟨_, List.mem_singleton.2 rfl,
        by simp [Surface.toJson, member?_ofFields, field?, ViewData.fields]⟩
    · simp [Surface.toJson, member?_ofFields, field?, ViewData.fields, Surface.blocks]
  · refine .view (.inr ⟨tagged, rfl⟩) ?_ ?_ forms (noFile_of_forms obeys forms (by decide))
    · exact ⟨_, List.mem_singleton.2 rfl,
        by simp [Surface.toJson, member?_ofFields, field?, ViewData.fields]⟩
    · simp [Surface.toJson, member?_ofFields, field?, ViewData.fields, Surface.blocks]

/-- The style of a button or a dialog in an accepted tree. -/
theorem style_of_wears (grammatical : Grammatical root) {style : String}
    (wears : root.Wears style) : style ∈ ["primary", "danger"] := by
  obtain ⟨element, inside, tagged | tagged, found⟩ := wears
  · have declared : ("style", Grammar.buttonStyles) ∈ Tag.button.rule.attributes := by decide
    exact (grammatical.obeys_of_tag inside tagged).mem_literals declared found
  · have declared : ("style", Grammar.buttonStyles) ∈ Tag.confirm.rule.attributes := by decide
    exact (grammatical.obeys_of_tag inside tagged).mem_literals declared found

end Element

/-- The JSON form of the surface of an accepted tree is a payload of the form that the
client asks for, and all its parts are regular. -/
theorem payload_conforms (root : Element) (engine : Engine W)
    (accepted : root.validate = .ok ()) :
    PayloadForm root (root.surface.answer engine).toJson ∧
      (root.surface.answer engine).toJson.Everywhere
        (Regular (fun _ => True) (· ∈ ["primary", "danger"])) := by
  have grammatical := Grammatical.of_validate accepted
  constructor
  · exact Element.form_surface engine grammatical
  · apply Surface.everywhere_regular
    · intro _ _
      trivial
    · intro style member
      exact Element.style_of_wears grammatical (Element.wears_of_mem_styles member)

/-- A message with a section beside a button, actions and an input. -/
def sampleMessage : Element :=
  (Element.ofKind "Blocks").append
    [.element ((Element.ofKind "Section").append
      [.text "a < b", .element (((Element.ofKind "Button").withAttribute "style"
        (.string "primary")).append [.text "Go"])]),
      .text " ",
      .element ((Element.ofKind "Actions").append [.element (.ofKind "UsersSelect")]),
      .element ((Element.ofKind "Input").append [.element (.ofKind "textarea")])]

/-- The checker accepts the message, and its payload conforms. -/
theorem sampleMessage_conforms :
    sampleMessage.validate = .ok () ∧
      PayloadForm sampleMessage (sampleMessage.surface.answer Engine.reference).toJson ∧
      (sampleMessage.surface.answer Engine.reference).toJson.Everywhere
        (Regular (fun _ => True) (· ∈ ["primary", "danger"])) := by
  have accepted : sampleMessage.validate = .ok () := by rfl
  exact ⟨accepted, payload_conforms sampleMessage Engine.reference accepted⟩

end MessageBlocks
