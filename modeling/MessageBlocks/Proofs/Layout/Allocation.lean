import MessageBlocks.Layout.Allocation
import MessageBlocks.Proofs.Layout.Greedy
import MessageBlocks.Proofs.Layout.Transparency

/-!
# Room for indents

The copies of a glyph in an indent are no wider than the indent and the slack, so a bound on the
widths that are asked for is one on the sizes of the texts. What a query asks for is stated along
its answers. If the engine has room for all of it, the query has a result, and through a cache as
well, which is asked for less.
-/

namespace MessageBlocks

variable {W α β : Type} [Width W]

namespace Query

variable {engine : Engine W} {allowed : W → Prop}

/-- Whether all indents that a query asks an engine for have widths that are allowed. -/
def Asks (engine : Engine W) (allowed : W → Prop) : Query W α → Prop
  | .pure _ => True
  | .measure text resume => (resume (engine.measure text)).Asks engine allowed
  | .indent width resume => allowed width ∧ (resume (engine.indent width)).Asks engine allowed

instance decidableAsks [DecidablePred allowed] :
    (query : Query W α) → Decidable (query.Asks engine allowed)
  | .pure _ => isTrue trivial
  | .measure text resume => decidableAsks (resume (engine.measure text))
  | .indent width resume =>
      have := decidableAsks (resume (engine.indent width))
      inferInstanceAs (Decidable (allowed width ∧ Asks engine allowed _))

@[simp]
theorem asks_pure (result : α) : (Pure.pure result : Query W α).Asks engine allowed :=
  trivial

@[simp]
theorem asks_width (text : List Char) : (width text).Asks engine allowed :=
  trivial

@[simp]
theorem asks_indentOf {width : W} : (indentOf width).Asks engine allowed ↔ allowed width :=
  and_iff_left trivial

/-- What follows a query asks with the answer to it. -/
@[simp]
theorem asks_bind {query : Query W α} {next : α → Query W β} :
    (query >>= next).Asks engine allowed ↔
      query.Asks engine allowed ∧ (next (query.answer engine)).Asks engine allowed := by
  induction query with
  | pure result => exact (and_iff_right trivial).symm
  | measure text resume ih => exact ih _
  | indent width resume ih => exact (and_congr_right fun _ => ih _).trans and_assoc.symm

@[simp]
theorem asks_map {convert : α → β} {query : Query W α} :
    (convert <$> query).Asks engine allowed ↔ query.Asks engine allowed :=
  asks_bind.trans (and_iff_left trivial)

theorem asks_mapM {step : α → Query W β} {items : List α}
    (asks : ∀ item ∈ items, (step item).Asks engine allowed) :
    (items.mapM step).Asks engine allowed := by
  induction items with
  | nil => trivial
  | cons item rest ih =>
      obtain ⟨first, others⟩ := List.forall_mem_cons.1 asks
      rw [List.mapM_cons]
      simp [first, ih others]

theorem Asks.mono {query : Query W α} {further : W → Prop} (asks : query.Asks engine allowed)
    (wider : ∀ width, allowed width → further width) : query.Asks engine further := by
  induction query with
  | pure result => trivial
  | measure text resume ih => exact ih _ asks
  | indent width resume ih => exact ⟨wider width asks.1, ih _ asks.2⟩

end Query

namespace Engine

/-- Whether no count in the indent is cut off, and the copies of each glyph fit into a text. -/
def HasRoomFor (engine : Engine W) (width : W) : Prop :=
  ∀ part ∈ engine.composition width,
    part.2 ≤ maxCount ∧ part.2 * part.1.text.utf8ByteSize ≤ maxBytes

instance decidableHasRoomFor (engine : Engine W) : DecidablePred engine.HasRoomFor := fun width =>
  inferInstanceAs (Decidable (∀ part ∈ engine.composition width,
    part.2 ≤ maxCount ∧ part.2 * part.1.text.utf8ByteSize ≤ maxBytes))

theorem HasRoomFor.indent? {engine : Engine W} {width : W} (room : engine.HasRoomFor width) :
    engine.indent? width = some (engine.indent width) := by
  refine if_pos (List.all_eq_true.2 fun part member => ?_)
  obtain ⟨count, size⟩ := room part member
  rw [fits, min_eq_left count]
  exact decide_eq_true size

section Bound

variable {engine : Engine ℚ} (valid : engine.metrics.isValid = true) {width bound : ℚ}

include valid

/-- The copies of each glyph are no wider than the indent and the slack. -/
theorem count_mul_width_le {part : Glyph ℚ × ℕ} (positive : 0 < width)
    (member : part ∈ engine.composition width) :
    part.2 * part.1.width ≤ width + Width.slack := by
  refine (List.single_le_sum ?_ _ (List.mem_map.2 ⟨part, member, rfl⟩)).trans
    (partsWidth_composition_le valid positive)
  intro width inParts
  obtain ⟨other, otherMember, rfl⟩ := List.mem_map.1 inParts
  have glyphPositive := glyphWidth_pos valid _ (mem_glyphs_of_mem_composition otherMember)
  exact mul_nonneg (Nat.cast_nonneg _) glyphPositive.le

theorem utf8ByteSize_pos {glyph : Glyph ℚ} (member : glyph ∈ engine.glyphs) :
    0 < glyph.text.utf8ByteSize := by
  have inSpaces := GlyphTable.mem_of_mem_ofSpaces member
  have notEmpty := ((Metrics.isValid_iff.1 valid).2 _ inSpaces).1
  refine Nat.pos_of_ne_zero fun noBytes => ?_
  rw [String.utf8ByteSize_eq_zero_iff.1 noBytes] at notEmpty
  cases notEmpty

/-- A bound on widths under which the copies of each glyph fit into a text. -/
theorem hasRoomFor_of_le (le : width ≤ bound) (room : ∀ glyph ∈ engine.glyphs,
    (bound + Width.slack) * glyph.text.utf8ByteSize ≤ maxBytes * glyph.width) :
    engine.HasRoomFor width := by
  intro part member
  rcases le_or_gt width 0 with notAbove | positive
  · rw [composition_of_nonpos notAbove] at member
    cases member
  · have inTable := mem_glyphs_of_mem_composition member
    have copies := count_mul_width_le valid positive member
    have nonneg : (0 : ℚ) ≤ part.1.text.utf8ByteSize := Nat.cast_nonneg _
    have scaled : (part.2 * part.1.text.utf8ByteSize : ℕ) * part.1.width ≤
        maxBytes * part.1.width :=
      calc ((part.2 * part.1.text.utf8ByteSize : ℕ) : ℚ) * part.1.width
          = part.2 * part.1.width * part.1.text.utf8ByteSize := by push_cast; ring
        _ ≤ (bound + Width.slack) * part.1.text.utf8ByteSize :=
            mul_le_mul_of_nonneg_right (by linarith) nonneg
        _ ≤ maxBytes * part.1.width := room part.1 inTable
    have size : part.2 * part.1.text.utf8ByteSize ≤ maxBytes := by
      exact_mod_cast le_of_mul_le_mul_right scaled (glyphWidth_pos valid part.1 inTable)
    have count : part.2 ≤ maxCount :=
      calc part.2 ≤ part.2 * part.1.text.utf8ByteSize :=
            Nat.le_mul_of_pos_right _ (utf8ByteSize_pos valid inTable)
        _ ≤ maxBytes := size
        _ ≤ maxCount := by decide
    exact ⟨count, size⟩

end Bound

end Engine

/-- A query has a result if the engine has room for what it asks for. -/
theorem Query.Asks.answer? {engine : Engine W} {query : Query W α}
    (asks : query.Asks engine engine.HasRoomFor) :
    query.answer? engine = some (query.answer engine) := by
  induction query with
  | pure result => rfl
  | measure text resume ih => exact ih _ asks
  | indent width resume ih =>
      rw [Query.answer?, asks.1.indent?, Option.bind_some]
      exact ih _ asks.2

namespace Cache

variable [Profile W] [DecidableEq W] {engine : Engine W} {cache : Cache W}

theorem makeIndent?_of_hasRoomFor {width : W} (room : engine.HasRoomFor width) (cache : Cache W) :
    cache.makeIndent? engine width = some (cache.indent engine width) :=
  if_pos (by simp [room.indent?])

/-- Through a sound cache such a query has the same result. -/
theorem answer?_of_asks {query : Query W α} (asks : query.Asks engine engine.HasRoomFor)
    (sound : cache.Sound (· = engine)) :
    (cache.answer? engine query).map Prod.fst = some (query.answer engine) := by
  induction query generalizing cache with
  | pure result => rfl
  | measure text resume ih =>
      obtain ⟨same, stillSound⟩ := transparent_measure sound (distinct_eq engine) rfl text
      have rest := ih _ asks stillSound
      simpa only [Cache.answer?, Query.answer, same] using rest
  | indent width resume ih =>
      obtain ⟨same, stillSound⟩ := transparent_indent sound (distinct_eq engine) rfl width
      have rest := ih _ asks.2 stillSound
      rw [Cache.answer?, makeIndent?_of_hasRoomFor asks.1]
      simpa only [Option.bind_eq_bind, Option.bind_some, Query.answer, same] using rest

end Cache

end MessageBlocks
