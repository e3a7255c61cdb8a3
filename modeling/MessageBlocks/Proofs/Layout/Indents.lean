import MessageBlocks.Layout.Reference
import MessageBlocks.Proofs.Json.Parts
import MessageBlocks.Proofs.Text.Escape

/-!
# The characters of indents

An indent is put together from the space glyphs of the metrics, whatever the widths
of the glyphs and of the indent are. So the indents of the reference metrics are made
of spaces only, and this does not depend on how widths are rounded.
-/

namespace MessageBlocks

variable {W : Type} [Width W]

namespace GlyphTable

theorem mem_of_mem_insert {glyph added : Glyph W} {table : GlyphTable W}
    (member : glyph ∈ insert added table) : glyph = added ∨ glyph ∈ table := by
  induction table with
  | nil => exact .inl (List.mem_singleton.1 member)
  | cons head rest ih =>
      rw [insert] at member
      split at member
      · exact List.mem_cons.1 member
      · split at member
        · exact (List.mem_cons.1 member).imp_right (List.mem_cons_of_mem head)
        · exact .inr member
      · rcases List.mem_cons.1 member with rfl | inRest
        · exact .inr List.mem_cons_self
        · exact (ih inRest).imp_right (List.mem_cons_of_mem head)

/-- The glyphs of a table are those that have been put in. -/
theorem mem_of_mem_ofSpaces {glyph : Glyph W} {spaces : List (String × W)}
    (member : glyph ∈ ofSpaces spaces) : (glyph.text, glyph.width) ∈ spaces := by
  suffices ∀ table : GlyphTable W,
      glyph ∈ spaces.foldl (fun table entry => insert ⟨entry.2, entry.1⟩ table) table →
        glyph ∈ table ∨ (glyph.text, glyph.width) ∈ spaces by
    simpa using this [] member
  clear member
  induction spaces with
  | nil => exact fun _ => .inl
  | cons entry rest ih =>
      intro table member
      rcases ih _ member with inserted | inRest
      · rcases mem_of_mem_insert inserted with rfl | inTable
        · exact .inr List.mem_cons_self
        · exact .inl inTable
      · exact .inr (List.mem_cons_of_mem _ inRest)

end GlyphTable

namespace Engine

theorem mem_of_mem_counts {part : Glyph W × Nat} {remaining : W} {table : GlyphTable W}
    (member : part ∈ counts remaining table) : part.1 ∈ table := by
  induction table generalizing remaining with
  | nil => cases member
  | cons glyph rest ih =>
      rw [counts] at member
      rcases List.mem_cons.1 member with rfl | inRest
      · exact List.mem_cons_self
      · exact List.mem_cons_of_mem _ (ih inRest)

theorem mem_glyphs_of_mem_composition {engine : Engine W} {width : W} {part : Glyph W × Nat}
    (member : part ∈ engine.composition width) : part.1 ∈ engine.glyphs := by
  rw [composition] at member
  split at member
  · exact mem_of_mem_counts member
  · cases member

theorem exists_glyph_of_mem_indent {engine : Engine W} {width : W} {character : Char}
    (member : character ∈ engine.indent width) :
    ∃ glyph ∈ engine.glyphs, character ∈ glyph.text.toList := by
  obtain ⟨part, partMember, inPart⟩ := List.mem_flatMap.1 member
  obtain ⟨copy, copyMember, inCopy⟩ := List.mem_flatten.1 inPart
  rw [List.eq_of_mem_replicate copyMember] at inCopy
  exact ⟨part.1, mem_glyphs_of_mem_composition partMember, inCopy⟩

/-- Every character of an indent is one of a space glyph of the metrics. -/
theorem mem_indent {engine : Engine W} {width : W} {character : Char}
    (member : character ∈ engine.indent width) :
    ∃ entry ∈ engine.metrics.spaces, character ∈ entry.1.toList := by
  obtain ⟨glyph, inTable, inGlyph⟩ := exists_glyph_of_mem_indent member
  exact ⟨_, GlyphTable.mem_of_mem_ofSpaces inTable, inGlyph⟩

theorem notMem_indent {engine : Engine W} {character : Char}
    (glyphs : ∀ entry ∈ engine.metrics.spaces, character ∉ entry.1.toList) (width : W) :
    character ∉ engine.indent width := by
  intro member
  obtain ⟨entry, entryMember, inEntry⟩ := mem_indent member
  exact glyphs entry entryMember inEntry

end Engine

/-- The space glyphs of the reference metrics are the spaces of Unicode from the en space to
the hair space. -/
theorem Metrics.code_of_mem_reference {entry : String × Float}
    (entryMember : entry ∈ Metrics.reference.spaces) {character : Char}
    (inEntry : character ∈ entry.1.toList) :
    0x2002 ≤ character.toNat ∧ character.toNat ≤ 0x200A := by
  have listed := Keyed.mem_of_mem_ofList entryMember
  simp only [List.mem_cons, List.not_mem_nil, or_false] at listed
  rcases listed with rfl | rfl | rfl | rfl | rfl | rfl | rfl | rfl | rfl <;>
    · obtain rfl := List.mem_singleton.1 inEntry
      decide

/-- The indents of the reference metrics hold neither brackets nor line feeds. -/
theorem Engine.isSober_indent {engine : Engine Float} (bundled : engine.metrics = .reference)
    (width : Float) : IsSober (engine.indent width) := by
  intro character member
  obtain ⟨entry, entryMember, inEntry⟩ := mem_indent member
  rw [bundled] at entryMember
  have code := Metrics.code_of_mem_reference entryMember inEntry
  refine ⟨?_, ?_, ?_⟩ <;> rintro rfl <;> exact absurd code (by decide)

end MessageBlocks
