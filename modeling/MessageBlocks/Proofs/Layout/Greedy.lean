import MessageBlocks.Proofs.Layout.Exact
import MessageBlocks.Proofs.Layout.Glyphs

/-!
# Greedy indents

An indent is put together greedily: of each glyph, from the widest on, it takes as many as there is
room for. The room is the width that remains together with the slack. It is never negative, also
where the glyphs so far are wider than the indent should be, and behind a glyph it is less than the
width of that glyph. So the slack is used up once and not by every glyph, and what is missing in the
end is less than the narrowest glyph. All of this is about widths without rounding.
-/

namespace MessageBlocks.Engine

/-- The width of the glyphs of an indent, each counted as often as it is taken. -/
def partsWidth (parts : List (Glyph ℚ × ℕ)) : ℚ :=
  (parts.map fun part => (part.2 : ℚ) * part.1.width).sum

@[simp]
theorem partsWidth_nil : partsWidth [] = 0 :=
  rfl

@[simp]
theorem partsWidth_cons (part : Glyph ℚ × ℕ) (parts : List (Glyph ℚ × ℕ)) :
    partsWidth (part :: parts) = part.2 * part.1.width + partsWidth parts :=
  List.sum_cons

/-- How often a glyph is taken when a width remains. -/
def taken (remaining : ℚ) (glyph : Glyph ℚ) : ℕ :=
  Width.wholePart ((remaining + Width.slack) / glyph.width)

/-- What remains of a width behind a glyph. -/
def left (remaining : ℚ) (glyph : Glyph ℚ) : ℚ :=
  remaining - taken remaining glyph * glyph.width

theorem counts_cons (remaining : ℚ) (glyph : Glyph ℚ) (rest : GlyphTable ℚ) :
    counts remaining (glyph :: rest) =
      (glyph, taken remaining glyph) :: counts (left remaining glyph) rest := by
  have same : (if taken remaining glyph = 0 then remaining
      else remaining - Width.ofCount (taken remaining glyph) * glyph.width) =
        left remaining glyph := by
    split
    · next none => simp [left, none]
    · rfl
  rw [← same]
  rfl

theorem partsWidth_counts_cons (remaining : ℚ) (glyph : Glyph ℚ) (rest : GlyphTable ℚ) :
    partsWidth (counts remaining (glyph :: rest)) =
      taken remaining glyph * glyph.width + partsWidth (counts (left remaining glyph) rest) := by
  rw [counts_cons, partsWidth_cons]

/-- The width of the glyphs that are taken and what is left are the whole width. -/
theorem taken_add_left (remaining : ℚ) (glyph : Glyph ℚ) :
    taken remaining glyph * glyph.width + left remaining glyph = remaining :=
  add_sub_cancel _ _

theorem map_fst_counts (remaining : ℚ) (table : GlyphTable ℚ) :
    (counts remaining table).map Prod.fst = table := by
  induction table generalizing remaining with
  | nil => rfl
  | cons glyph rest ih => rw [counts_cons, List.map_cons, ih]

section Step

variable {remaining other : ℚ} {glyph : Glyph ℚ} {count : ℕ}

/-- A glyph is taken as often as there is room for. -/
theorem le_taken_iff (room : 0 ≤ remaining + Width.slack) (positive : 0 < glyph.width) :
    count ≤ taken remaining glyph ↔ count * glyph.width ≤ remaining + Width.slack := by
  have whole : taken remaining glyph = ⌊(remaining + Width.slack) / glyph.width⌋₊ := rfl
  rw [whole, Nat.le_floor_iff (div_nonneg room positive.le), le_div_iff₀ positive]

/-- Behind a glyph there is still room, but not for another one of them. -/
theorem room_left (room : 0 ≤ remaining + Width.slack) (positive : 0 < glyph.width) :
    0 ≤ left remaining glyph + Width.slack ∧
      left remaining glyph + Width.slack < glyph.width := by
  have fits := (le_taken_iff room positive).1 le_rfl
  have oneMore : ¬ taken remaining glyph + 1 ≤ taken remaining glyph := Nat.not_succ_le_self _
  rw [le_taken_iff room positive, not_le] at oneMore
  push_cast at oneMore
  constructor <;> rw [left] <;> linarith

theorem taken_mono (room : 0 ≤ remaining + Width.slack) (positive : 0 < glyph.width)
    (le : remaining ≤ other) : taken remaining glyph ≤ taken other glyph := by
  rw [le_taken_iff (by linarith) positive]
  have fits := (le_taken_iff room positive).1 le_rfl
  linarith

end Step

section Table

variable {table : GlyphTable ℚ} {remaining other : ℚ}

theorem partsWidth_counts_nonneg (positive : ∀ glyph ∈ table, 0 < glyph.width) (remaining : ℚ) :
    0 ≤ partsWidth (counts remaining table) := by
  induction table generalizing remaining with
  | nil => exact le_rfl
  | cons glyph rest ih =>
      obtain ⟨width, restPositive⟩ := List.forall_mem_cons.1 positive
      rw [partsWidth_counts_cons]
      exact add_nonneg (mul_nonneg (Nat.cast_nonneg _) width.le) (ih restPositive _)

/-- All glyphs together fit into the room that there was for the first one. -/
theorem partsWidth_counts_le (positive : ∀ glyph ∈ table, 0 < glyph.width)
    (room : 0 ≤ remaining + Width.slack) :
    partsWidth (counts remaining table) ≤ remaining + Width.slack := by
  induction table generalizing remaining with
  | nil => exact room
  | cons glyph rest ih =>
      obtain ⟨width, restPositive⟩ := List.forall_mem_cons.1 positive
      have further := ih restPositive (room_left room width).1
      have whole := taken_add_left remaining glyph
      rw [partsWidth_counts_cons]
      linarith

/-- The room that is left in the end is less than the narrowest glyph, which is the last one. -/
theorem room_lt_narrowest (positive : ∀ glyph ∈ table, 0 < glyph.width)
    (room : 0 ≤ remaining + Width.slack) {narrowest : ℚ}
    (last : table.narrowest? = some narrowest) :
    remaining + Width.slack - partsWidth (counts remaining table) < narrowest := by
  induction table generalizing remaining with
  | nil => cases last
  | cons glyph rest ih =>
      obtain ⟨width, restPositive⟩ := List.forall_mem_cons.1 positive
      have after := room_left room width
      have whole := taken_add_left remaining glyph
      rw [partsWidth_counts_cons]
      cases rest with
      | nil =>
          obtain rfl : glyph.width = narrowest := Option.some.inj last
          rw [counts, partsWidth_nil]
          linarith
      | cons next others =>
          have further := ih restPositive after.1 last
          linarith

/-- Of each glyph there are as many as keep the glyphs up to it within the room. The glyphs in front
of it are those of the steps before, so the induction runs over all widths that may remain. -/
theorem isGreatest_counts (positive : ∀ glyph ∈ table, 0 < glyph.width)
    (room : 0 ≤ remaining + Width.slack) {before after : List (Glyph ℚ × ℕ)} {part : Glyph ℚ × ℕ}
    (cut : counts remaining table = before ++ part :: after) :
    IsGreatest {count : ℕ | partsWidth before + count * part.1.width ≤ remaining + Width.slack}
      part.2 := by
  induction table generalizing remaining before with
  | nil => simp [counts] at cut
  | cons glyph rest ih =>
      obtain ⟨width, restPositive⟩ := List.forall_mem_cons.1 positive
      rw [counts_cons] at cut
      cases before with
      | nil =>
          obtain ⟨rfl, -⟩ := List.cons.inj cut
          simp only [partsWidth_nil, zero_add, ← le_taken_iff room width]
          exact ⟨le_refl (taken remaining glyph), fun _ fits => fits⟩
      | cons first before =>
          obtain ⟨rfl, cutRest⟩ := List.cons.inj cut
          have further := ih restPositive (room_left room width).1 cutRest
          have same (count : ℕ) :
              partsWidth ((glyph, taken remaining glyph) :: before) + count * part.1.width ≤
                  remaining + Width.slack ↔
                partsWidth before + count * part.1.width ≤ left remaining glyph + Width.slack := by
            have whole := taken_add_left remaining glyph
            rw [partsWidth_cons]
            constructor <;> intro fits <;> linarith
          simpa only [same] using further

/-- More width never makes the glyphs narrower. The two indents have the same count of each glyph
up to one of which the wider indent has more, and one glyph more is wider than all that can follow
in the other. -/
theorem partsWidth_counts_mono (positive : ∀ glyph ∈ table, 0 < glyph.width)
    (room : 0 ≤ remaining + Width.slack) (le : remaining ≤ other) :
    partsWidth (counts remaining table) ≤ partsWidth (counts other table) := by
  induction table generalizing remaining other with
  | nil => exact le_rfl
  | cons glyph rest ih =>
      obtain ⟨width, restPositive⟩ := List.forall_mem_cons.1 positive
      have after := room_left room width
      have whole := taken_add_left remaining glyph
      rw [partsWidth_counts_cons, partsWidth_counts_cons]
      rcases (taken_mono room width le).eq_or_lt with same | fewer
      · have leftLe : left remaining glyph ≤ left other glyph := by
          rw [left, left, same]
          exact sub_le_sub_right le _
        rw [same]
        exact add_le_add_right (ih restPositive after.1 leftLe) _
      · have oneMore : ((taken remaining glyph + 1 : ℕ) : ℚ) * glyph.width ≤
            taken other glyph * glyph.width :=
          mul_le_mul_of_nonneg_right (by exact_mod_cast fewer) width.le
        have fits := partsWidth_counts_le restPositive after.1
        have nonneg := partsWidth_counts_nonneg restPositive (left other glyph)
        push_cast at oneMore
        linarith

end Table

theorem composition_of_pos {engine : Engine ℚ} {width : ℚ} (positive : 0 < width) :
    engine.composition width = counts width engine.glyphs :=
  if_pos (decide_eq_true positive)

theorem composition_of_nonpos {engine : Engine ℚ} {width : ℚ} (notAbove : width ≤ 0) :
    engine.composition width = [] :=
  if_neg (by simpa [Width.below, Width.zero] using notAbove)

theorem slack_pos : (0 : ℚ) < Width.slack := by
  norm_num [Width.slack]

/-- `IsGreedy table bound parts`: the parts go through the whole table, from the widest glyph to the
narrowest, and have of each glyph the greatest count that keeps the glyphs up to it within the
bound. -/
structure IsGreedy (table : GlyphTable ℚ) (bound : ℚ) (parts : List (Glyph ℚ × ℕ)) : Prop where
  glyphs : parts.map Prod.fst = table
  descends : table.Pairwise fun glyph next => next.width < glyph.width
  counts : ∀ before part after, parts = before ++ part :: after →
    IsGreatest {count : ℕ | partsWidth before + count * part.1.width ≤ bound} part.2

section Valid

variable {engine : Engine ℚ} (valid : engine.metrics.isValid = true) {width : ℚ}
  (positive : 0 < width)

include valid

theorem glyphWidth_pos : ∀ glyph ∈ engine.glyphs, 0 < glyph.width := by
  intro glyph member
  have width := ((Metrics.isValid_iff.1 valid).2 _ (GlyphTable.mem_of_mem_ofSpaces member)).2
  simpa [Metrics.isGlyphWidth, Width.below, Width.zero, Width.isFinite] using width

include positive

theorem isGreedy_composition :
    IsGreedy engine.glyphs (width + Width.slack) (engine.composition width) := by
  have room : 0 ≤ width + Width.slack := (add_pos positive slack_pos).le
  have descends := (GlyphTable.descends_ofSpaces engine.metrics.spaces).imp
    fun {glyph next} wider => by
      rwa [Width.order_eq_compare, compare_gt_iff_gt] at wider
  rw [composition_of_pos positive]
  exact ⟨map_fst_counts _ _, descends,
    fun before part after => isGreatest_counts (glyphWidth_pos valid) room⟩

theorem partsWidth_composition_le :
    partsWidth (engine.composition width) ≤ width + Width.slack := by
  rw [composition_of_pos positive]
  exact partsWidth_counts_le (glyphWidth_pos valid) (add_pos positive slack_pos).le

theorem width_sub_partsWidth_lt {narrowest : ℚ}
    (last : engine.glyphs.narrowest? = some narrowest) :
    width - partsWidth (engine.composition width) < narrowest := by
  have slack := slack_pos
  have less := room_lt_narrowest (glyphWidth_pos valid) (add_pos positive slack).le last
  rw [composition_of_pos positive]
  linarith

end Valid

/-- Metrics with space glyphs have a narrowest one. -/
theorem exists_narrowest {engine : Engine ℚ} (filled : engine.metrics.spaces ≠ []) :
    ∃ narrowest, engine.glyphs.narrowest? = some narrowest := by
  obtain ⟨entry, member⟩ := List.exists_mem_of_ne_nil _ filled
  have inTable : engine.glyphs.HasWidth entry.2 :=
    GlyphTable.hasWidth_ofSpaces.2 ⟨entry, member, Std.ReflCmp.compare_self⟩
  obtain ⟨glyph, glyphMember, -⟩ := inTable
  rw [GlyphTable.narrowest?, List.getLast?_eq_some_getLast (List.ne_nil_of_mem glyphMember)]
  exact ⟨_, rfl⟩

/-- Indents of an engine whose metrics come from a document are greedy. Their glyphs are wider than
the indent should be by the slack at most, however many they are, and what is missing is less than
the narrowest glyph. -/
theorem composition_isGreedy {engine : Engine Float} {document : String}
    (accepted : Metrics.read document = .ok engine.metrics)
    (filled : engine.metrics.spaces ≠ []) {width : ℚ} (positive : 0 < width) :
    IsGreedy engine.exact.glyphs (width + Width.slack) (engine.exact.composition width) ∧
      partsWidth (engine.exact.composition width) ≤ width + Width.slack ∧
      ∃ narrowest, engine.exact.glyphs.narrowest? = some narrowest ∧
        width - partsWidth (engine.exact.composition width) < narrowest := by
  have valid : engine.exact.metrics.isValid = true :=
    Metrics.isValid_exact (Metrics.isValid_of_read accepted)
  have exactFilled : engine.exact.metrics.spaces ≠ [] := by
    simpa [Engine.exact, Metrics.exact] using filled
  obtain ⟨narrowest, last⟩ := exists_narrowest exactFilled
  exact ⟨isGreedy_composition valid positive, partsWidth_composition_le valid positive,
    narrowest, last, width_sub_partsWidth_lt valid positive last⟩

/-- A document with three of the space glyphs of Unicode. -/
def spacesDocument : String :=
  "\x7b\"spaces\": \x7b\"\u2003\": 100, \"\u2007\": 58, \"\u200a\": 8.33\x7d\x7d"

/-- The engine over the metrics of that document. -/
def spacesEngine : Engine Float :=
  ⟨⟨[], [("\u2003", 100.0), ("\u2007", 58.0), ("\u200a", 8.33)]⟩, defaultFallback⟩

theorem read_spacesDocument : Metrics.read spacesDocument = .ok spacesEngine.metrics := by
  decide +kernel

/-- A width that is a little less than that of the figure space gets the figure space, because of
the slack, and then nothing else. -/
theorem spacesEngine_isGreedy :
    Metrics.read spacesDocument = .ok spacesEngine.metrics ∧ spacesEngine.metrics.spaces ≠ [] ∧
      (0 : ℚ) < 58 - 1 / 2000000 ∧
      (spacesEngine.exact.composition (58 - 1 / 2000000)).map Prod.snd = [0, 1, 0] ∧
      IsGreedy spacesEngine.exact.glyphs (58 - 1 / 2000000 + Width.slack)
        (spacesEngine.exact.composition (58 - 1 / 2000000)) ∧
      partsWidth (spacesEngine.exact.composition (58 - 1 / 2000000)) ≤
        58 - 1 / 2000000 + Width.slack ∧
      ∃ narrowest, spacesEngine.exact.glyphs.narrowest? = some narrowest ∧
        58 - 1 / 2000000 - partsWidth (spacesEngine.exact.composition (58 - 1 / 2000000)) <
          narrowest :=
  ⟨read_spacesDocument, List.cons_ne_nil _ _, by norm_num, by decide +kernel,
    composition_isGreedy read_spacesDocument (List.cons_ne_nil _ _) (by norm_num)⟩

/-- More width never makes an indent narrower, whatever the signs of the widths are. -/
theorem partsWidth_composition_mono {engine : Engine Float} {document : String}
    (accepted : Metrics.read document = .ok engine.metrics) {first second : ℚ}
    (le : first ≤ second) :
    partsWidth (engine.exact.composition first) ≤
      partsWidth (engine.exact.composition second) := by
  have valid : engine.exact.metrics.isValid = true :=
    Metrics.isValid_exact (Metrics.isValid_of_read accepted)
  have glyphs := glyphWidth_pos valid
  rcases le_or_gt first 0 with notAbove | positive
  · rw [composition_of_nonpos notAbove]
    rcases le_or_gt second 0 with secondNotAbove | secondPositive
    · rw [composition_of_nonpos secondNotAbove]
    · rw [composition_of_pos secondPositive]
      exact partsWidth_counts_nonneg glyphs second
  · have slack := slack_pos
    rw [composition_of_pos positive, composition_of_pos (positive.trans_le le)]
    exact partsWidth_counts_mono glyphs (by linarith) le

/-- One unit of width more exchanges six hair spaces for a figure space, which is wider. -/
theorem spacesEngine_partsWidth_le :
    Metrics.read spacesDocument = .ok spacesEngine.metrics ∧ (57 : ℚ) ≤ 58 ∧
      (spacesEngine.exact.composition 57).map Prod.snd = [0, 0, 6] ∧
      (spacesEngine.exact.composition 58).map Prod.snd = [0, 1, 0] ∧
      partsWidth (spacesEngine.exact.composition 57) ≤
        partsWidth (spacesEngine.exact.composition 58) :=
  ⟨read_spacesDocument, by norm_num, by decide +kernel, by decide +kernel,
    partsWidth_composition_mono read_spacesDocument (by norm_num)⟩

end MessageBlocks.Engine
