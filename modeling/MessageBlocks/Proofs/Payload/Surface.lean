import MessageBlocks.Payload.Surface
import MessageBlocks.Proofs.Payload.Regular

/-!
# Regular surfaces

The laws of regular payloads go from the components and texts in a block to the
block, and from the blocks to the surface. A surface lists the texts in the markup
of the client and the styles that occur in it, and it is regular for any law
about texts and styles that those in the lists keep.
-/

namespace MessageBlocks

open Json

variable {text style : String → Prop}

theorem everywhere_image (image : ImageElement) :
    (ofFields image.fields).Everywhere (Regular text style) := by
  apply everywhere_ofFields
  · apply regular_ofFields <;> simp [ImageElement.fields, field?]
  · simp [ImageElement.fields]

namespace Accessory

def texts : Accessory → List String
  | image _ => []
  | component part => part.texts

def styles : Accessory → List String
  | image _ => []
  | component part => part.styles

theorem everywhere_regular (accessory : Accessory)
    (texts : ∀ content ∈ accessory.texts, text content)
    (styles : ∀ name ∈ accessory.styles, style name) :
    accessory.toJson.Everywhere (Regular text style) := by
  cases accessory with
  | image picture => exact everywhere_image picture
  | component part => exact part.everywhere_regular texts styles

end Accessory

def ContextElement.texts : ContextElement → List String
  | .image _ => []
  | .text content => content.texts

theorem ContextElement.everywhere_regular (element : ContextElement)
    (texts : ∀ content ∈ element.texts, text content) :
    element.toJson.Everywhere (Regular text style) := by
  cases element with
  | image picture => exact everywhere_image picture
  | text content => exact content.everywhere_regular texts

namespace Block

def texts (block : Block) : List String :=
  match block.content with
  | .sectionText text fields accessory =>
      text.toList.flatMap TextObject.texts ++ fields.flatMap TextObject.texts ++
        accessory.toList.flatMap Accessory.texts
  | .actions components => components.flatMap Component.texts
  | .context elements => elements.flatMap ContextElement.texts
  | .input _ component _ _ _ => component.toList.flatMap Component.texts
  | _ => []

def styles (block : Block) : List String :=
  match block.content with
  | .sectionText _ _ accessory => accessory.toList.flatMap Accessory.styles
  | .actions components => components.flatMap Component.styles
  | .input _ component _ _ _ => component.toList.flatMap Component.styles
  | _ => []

theorem regular_toJson (block : Block) : block.toJson.Regular text style := by
  obtain ⟨content, id⟩ := block
  cases content with
  | sectionText shown fields accessory =>
      apply regular_ofFields <;> simp [BlockContent.fields, field?]
      cases fields <;> simp
  | _ => apply regular_ofFields <;>
      simp [BlockContent.fields, ImageElement.fields, field?]

theorem everywhere_fields (block : Block) (texts : ∀ content ∈ block.texts, text content)
    (styles : ∀ name ∈ block.styles, style name) :
    ∀ field ∈ block.content.fields, FieldEverywhere (Regular text style) field.2 := by
  obtain ⟨content, id⟩ := block
  cases content with
  | sectionText shown fields accessory =>
      simp only [Block.texts, Block.styles, List.mem_append, List.mem_flatMap] at texts styles
      have shownRegular : ∀ part, shown = some part → part.toJson.Everywhere (Regular text style) :=
        fun part found => part.everywhere_regular fun content inPart =>
          texts content (.inl (.inl ⟨part, by simp [found], inPart⟩))
      have fieldsRegular : ∀ part ∈ fields, part.toJson.Everywhere (Regular text style) :=
        fun part member => part.everywhere_regular fun content inPart =>
          texts content (.inl (.inr ⟨part, member, inPart⟩))
      have accessoryRegular : ∀ part, accessory = some part →
          part.toJson.Everywhere (Regular text style) := by
        intro part found
        apply part.everywhere_regular
        · intro content inPart
          exact texts content (.inr ⟨part, by simp [found], inPart⟩)
        · intro name inPart
          exact styles name ⟨part, by simp [found], inPart⟩
      simp only [BlockContent.fields, List.forall_mem_cons, fieldEverywhere_some,
        fieldEverywhere_map, everywhere_string, true_and, List.not_mem_nil, false_imp_iff,
        implies_true, and_true]
      refine ⟨shownRegular, ?_, accessoryRegular⟩
      split
      · simp
      · simpa using everywhere_items fieldsRegular
  | actions components =>
      simp only [Block.texts, Block.styles, List.mem_flatMap] at texts styles
      have regular : ∀ part ∈ components, part.toJson.Everywhere (Regular text style) := by
        intro part member
        apply part.everywhere_regular
        · intro content inPart
          exact texts content ⟨part, member, inPart⟩
        · intro name inPart
          exact styles name ⟨part, member, inPart⟩
      simpa [BlockContent.fields] using everywhere_items regular
  | context elements =>
      simp only [Block.texts, List.mem_flatMap] at texts
      have regular : ∀ part ∈ elements, part.toJson.Everywhere (Regular text style) :=
        fun part member => part.everywhere_regular fun content inPart =>
          texts content ⟨part, member, inPart⟩
      simpa [BlockContent.fields] using everywhere_items regular
  | input label component hint isOptional dispatchAction =>
      simp only [Block.texts, Block.styles, List.mem_flatMap] at texts styles
      have regular : ∀ part, component = some part →
          part.toJson.Everywhere (Regular text style) := by
        intro part found
        apply part.everywhere_regular
        · intro content inPart
          exact texts content ⟨part, by simp [found], inPart⟩
        · intro name inPart
          exact styles name ⟨part, by simp [found], inPart⟩
      simpa [BlockContent.fields, everywhere_plainField] using regular
  | _ => simp [BlockContent.fields, ImageElement.fields, everywhere_plainField]

theorem everywhere_regular (block : Block) (texts : ∀ content ∈ block.texts, text content)
    (styles : ∀ name ∈ block.styles, style name) :
    block.toJson.Everywhere (Regular text style) := by
  apply everywhere_ofFields block.regular_toJson
  intro field member
  rcases List.mem_append.1 member with inContent | inId
  · exact block.everywhere_fields texts styles field inContent
  · obtain rfl := List.mem_singleton.1 inId
    simp

end Block

namespace Surface

def texts (surface : Surface) : List String :=
  surface.blocks.flatMap Block.texts

def styles (surface : Surface) : List String :=
  surface.blocks.flatMap Block.styles

/-- Every part of the JSON form of a surface is regular, and its texts in the markup of the
client and its styles are those of the surface. -/
theorem everywhere_regular (surface : Surface) (texts : ∀ content ∈ surface.texts, text content)
    (styles : ∀ name ∈ surface.styles, style name) :
    surface.toJson.Everywhere (Regular text style) := by
  simp only [Surface.texts, Surface.styles, List.mem_flatMap] at texts styles
  have blocks : (array (surface.blocks.map Block.toJson)).Everywhere (Regular text style) := by
    apply everywhere_items
    intro block member
    apply block.everywhere_regular
    · intro content inBlock
      exact texts content ⟨block, member, inBlock⟩
    · intro name inBlock
      exact styles name ⟨block, member, inBlock⟩
  cases surface with
  | message => exact blocks
  | modal =>
      apply everywhere_ofFields
      · apply regular_ofFields <;> simp [field?, ViewData.fields]
      · simpa [ViewData.fields, everywhere_plainField, Surface.blocks] using blocks
  | home =>
      apply everywhere_ofFields
      · apply regular_ofFields <;> simp [field?, ViewData.fields]
      · simpa [ViewData.fields, everywhere_plainField, Surface.blocks] using blocks

end Surface
end MessageBlocks
