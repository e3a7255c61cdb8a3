import MessageBlocks.Proofs.Layout.Greedy
import MessageBlocks.Proofs.Layout.Transparency

/-!
# Indents that an engine recognises

An indent is put together from whole glyphs, but it is measured letter by letter, and a letter
counts only if it is a glyph by itself. So the width of an indent is that of its parts if each glyph
of the table measures as wide as the table says, and only then: every glyph stands in some indent,
behind copies of the widest one. Glyphs of one letter measure so. Metrics may have longer ones, too,
which need not be recognised.
-/

namespace MessageBlocks

namespace GlyphTable

variable {W : Type} [Width W] {table : GlyphTable W} {glyph : Glyph W}

omit [Width W] in
theorem isSome_widthOf? (member : glyph ∈ table) : (table.widthOf? glyph.text).isSome = true := by
  rw [widthOf?, Option.isSome_map, List.find?_isSome]
  exact ⟨glyph, member, beq_self_eq_true _⟩

/-- A table over spaces with different keys has one glyph of each text. -/
theorem widthOf?_of_mem {spaces : List (String × W)} (distinct : (spaces.map Prod.fst).Nodup)
    (member : glyph ∈ ofSpaces spaces) :
    (ofSpaces spaces).widthOf? glyph.text = some glyph.width := by
  obtain ⟨found, search⟩ := Option.isSome_iff_exists.1
    ((Option.isSome_map).symm.trans (isSome_widthOf? member))
  have sameText : found.text = glyph.text := by simpa using List.find?_some search
  have foundSpace := mem_of_mem_ofSpaces (List.mem_of_find?_eq_some search)
  have glyphSpace := mem_of_mem_ofSpaces member
  have sameEntry := List.inj_on_of_nodup_map distinct foundSpace glyphSpace sameText
  rw [widthOf?, search, Option.map_some, (Prod.mk.inj sameEntry).2]

end GlyphTable

namespace Metrics

/-- The space glyphs of a document have different texts. -/
theorem nodup_spaces_of_read {document : String} {metrics : Metrics Float}
    (accepted : read document = .ok metrics) : (metrics.spaces.map Prod.fst).Nodup := by
  have nodup {field : Option Json} {spaces : List (String × Float)}
      (found : widths? some field = some spaces) : (spaces.map Prod.fst).Nodup := by
    rw [widths?.eq_def] at found
    split at found
    · obtain rfl := Option.some.inj found
      exact List.nodup_nil
    · obtain ⟨entries, -, rfl⟩ := Option.map_eq_some_iff.1 found
      exact List.pairwise_map.2 ((Keyed.sorted_ofList _).imp fun below => Std.ne_of_lt below)
    · cases found
  rw [read] at accepted
  split at accepted
  · cases accepted
  · next parsedJson =>
    split at accepted
    · cases accepted
    · obtain rfl := Except.ok.inj accepted
      obtain ⟨json, -, parsed⟩ := Option.bind_eq_some_iff.1 parsedJson
      simp only [ofJson?, Option.bind_eq_bind, Option.bind_eq_some_iff] at parsed
      obtain ⟨fields, -, parsed⟩ := parsed
      split at parsed
      · simp only [Option.bind_eq_some_iff] at parsed
        obtain ⟨letters, -, spaces, found, same⟩ := parsed
        obtain rfl := Option.some.inj same
        exact nodup found
      · cases parsed

end Metrics

namespace Engine

section Letters

variable {W : Type} [Width W] {engine : Engine W}

/-- An engine measures the texts whose letters are glyphs, and no others. -/
theorem isSome_indentWidth?_iff {text : List Char} :
    (engine.indentWidth? text).isSome = true ↔
      ∀ letter ∈ text, (engine.glyphs.widthOf? letter.toString).isSome = true := by
  suffices ∀ total : W, (text.foldlM (fun total letter =>
      (engine.glyphs.widthOf? letter.toString).map (total + ·)) total).isSome = true ↔
        ∀ letter ∈ text, (engine.glyphs.widthOf? letter.toString).isSome = true from
    this Width.zero
  induction text with
  | nil => simp
  | cons letter rest ih =>
      intro total
      rw [List.foldlM_cons, List.forall_mem_cons]
      cases found : engine.glyphs.widthOf? letter.toString with
      | none => simp
      | some width => simpa using ih (total + width)

end Letters

section Sums

variable {engine : Engine ℚ} {first second : List Char}

theorem indentWidth?_append (engine : Engine ℚ) (first second : List Char) :
    engine.indentWidth? (first ++ second) =
      (engine.indentWidth? first).bind fun width =>
        (engine.indentWidth? second).map (width + ·) := by
  have behind (total : ℚ) (text : List Char) :
      text.foldlM (fun total letter =>
          (engine.glyphs.widthOf? letter.toString).map (total + ·)) total =
        (engine.indentWidth? text).map (total + ·) := by
    rw [indentWidth?]
    induction text generalizing total with
    | nil => exact congrArg some (add_zero total).symm
    | cons letter rest ih =>
        rw [List.foldlM_cons, List.foldlM_cons]
        cases engine.glyphs.widthOf? letter.toString with
        | none => rfl
        | some width =>
            have zero : (Width.zero : ℚ) + width = width := zero_add width
            simp only [Option.map_some, Option.bind_eq_bind, Option.bind_some, zero]
            rw [ih, ih width, Option.map_map]
            congr 1
            funext further
            exact add_assoc total width further
  rw [indentWidth?, List.foldlM_append]
  exact congrArg _ (funext fun total => behind total second)

theorem indentWidth?_append_eq_some {width : ℚ} :
    engine.indentWidth? (first ++ second) = some width ↔
      ∃ before after, engine.indentWidth? first = some before ∧
        engine.indentWidth? second = some after ∧ before + after = width := by
  rw [indentWidth?_append]
  simp [Option.bind_eq_some_iff]

theorem indentWidth?_replicate {text : List Char} {width : ℚ}
    (measured : engine.indentWidth? text = some width) (count : ℕ) :
    engine.indentWidth? (List.replicate count text).flatten = some (count * width) := by
  induction count with
  | zero => exact congrArg some (by simp [Width.zero])
  | succ count ih =>
      rw [List.replicate_succ, List.flatten_cons]
      refine indentWidth?_append_eq_some.2 ⟨width, count * width, measured, ih, ?_⟩
      push_cast
      ring

end Sums

/-- The text of the glyphs of an indent, each as often as it is taken. -/
def partsText (parts : List (Glyph ℚ × ℕ)) : List Char :=
  parts.flatMap fun part => (List.replicate part.2 part.1.text.toList).flatten

@[simp]
theorem partsText_cons (part : Glyph ℚ × ℕ) (parts : List (Glyph ℚ × ℕ)) :
    partsText (part :: parts) =
      (List.replicate part.2 part.1.text.toList).flatten ++ partsText parts :=
  List.flatMap_cons

/-- Parts are as wide as their text measures, if each of their glyphs is. -/
theorem indentWidth?_partsText {engine : Engine ℚ} {parts : List (Glyph ℚ × ℕ)}
    (measured : ∀ part ∈ parts,
      engine.indentWidth? part.1.text.toList = some part.1.width) :
    engine.indentWidth? (partsText parts) = some (partsWidth parts) := by
  induction parts with
  | nil => rfl
  | cons part rest ih =>
      obtain ⟨first, others⟩ := List.forall_mem_cons.1 measured
      rw [partsText_cons, partsWidth_cons]
      exact indentWidth?_append_eq_some.2
        ⟨_, _, indentWidth?_replicate first part.2, ih others, rfl⟩

section Rooms

variable {table : GlyphTable ℚ} {glyph : Glyph ℚ} {remaining : ℚ} {count : ℕ}

/-- A glyph is taken as often as it goes into the room. -/
theorem taken_eq {rest : ℚ} (positive : 0 < glyph.width)
    (room : remaining + Width.slack = count * glyph.width + rest) (nonneg : 0 ≤ rest)
    (less : rest < glyph.width) : taken remaining glyph = count := by
  have counted : (0 : ℚ) ≤ count * glyph.width := mul_nonneg (Nat.cast_nonneg count) positive.le
  have enough : 0 ≤ remaining + Width.slack := by linarith
  refine le_antisymm (Nat.le_of_lt_succ ?_) ?_
  · rw [← not_le, le_taken_iff enough positive, room]
    push_cast
    linarith
  · rw [le_taken_iff enough positive]
    linarith

/-- A glyph takes its copies out of the room, and the next glyphs share what is left of it. -/
theorem exists_counts_cons {further : ℚ} (rest : GlyphTable ℚ) (positive : 0 < glyph.width)
    (room : remaining + Width.slack = count * glyph.width + further) (nonneg : 0 ≤ further)
    (less : further < glyph.width) :
    ∃ next, next + Width.slack = further ∧
      counts remaining (glyph :: rest) = (glyph, count) :: counts next rest := by
  have isTaken := taken_eq positive room nonneg less
  refine ⟨left remaining glyph, ?_, by rw [counts_cons, isTaken]⟩
  rw [left, isTaken]
  linarith

/-- Where all glyphs are wider than the room, none is taken. -/
theorem partsText_eq_nil (positive : ∀ glyph ∈ table, 0 < glyph.width)
    (room : 0 ≤ remaining + Width.slack)
    (wider : ∀ glyph ∈ table, remaining + Width.slack < glyph.width) :
    partsText (counts remaining table) = [] ∧ partsWidth (counts remaining table) = 0 := by
  induction table generalizing remaining with
  | nil => exact ⟨rfl, rfl⟩
  | cons head rest ih =>
      obtain ⟨width, restPositive⟩ := List.forall_mem_cons.1 positive
      obtain ⟨headWider, restWider⟩ := List.forall_mem_cons.1 wider
      have whole : remaining + Width.slack = (0 : ℕ) * head.width + (remaining + Width.slack) := by
        simp
      obtain ⟨next, same, step⟩ := exists_counts_cons rest width whole room headWider
      obtain ⟨noText, noWidth⟩ := ih restPositive (same ▸ room) (same ▸ restWider)
      rw [step, partsText_cons, partsWidth_cons, noText, noWidth]
      simp

/-- Where the room is that of some copies of the widest glyph, these are taken and no other. -/
theorem partsText_eq_copies {widest : Glyph ℚ} {rest : GlyphTable ℚ}
    (positive : ∀ glyph ∈ widest :: rest, 0 < glyph.width)
    (room : remaining + Width.slack = count * widest.width) :
    partsText (counts remaining (widest :: rest)) =
        (List.replicate count widest.text.toList).flatten ∧
      partsWidth (counts remaining (widest :: rest)) = count * widest.width := by
  obtain ⟨width, restPositive⟩ := List.forall_mem_cons.1 positive
  have whole : remaining + Width.slack = count * widest.width + 0 := room.trans (add_zero _).symm
  obtain ⟨next, same, step⟩ := exists_counts_cons rest width whole le_rfl width
  obtain ⟨noText, noWidth⟩ := partsText_eq_nil restPositive same.ge (same ▸ restPositive)
  rw [step, partsText_cons, partsWidth_cons, noText, noWidth]
  simp

/-- Where the room is that of one glyph, this glyph is taken and no other. -/
theorem partsText_eq_glyph (positive : ∀ glyph ∈ table, 0 < glyph.width)
    (descends : table.Pairwise fun glyph next => next.width < glyph.width)
    (member : glyph ∈ table) (room : remaining + Width.slack = glyph.width) :
    partsText (counts remaining table) = glyph.text.toList ∧
      partsWidth (counts remaining table) = glyph.width := by
  induction table generalizing remaining with
  | nil => cases member
  | cons head rest ih =>
      obtain ⟨width, restPositive⟩ := List.forall_mem_cons.1 positive
      obtain ⟨narrower, restDescends⟩ := List.pairwise_cons.1 descends
      rcases List.mem_cons.1 member with rfl | inRest
      · have single : remaining + Width.slack = (1 : ℕ) * glyph.width := by simpa using room
        simpa using partsText_eq_copies positive single
      · have whole : remaining + Width.slack = (0 : ℕ) * head.width + glyph.width := by
          simpa using room
        obtain ⟨next, same, step⟩ := exists_counts_cons rest width whole
          (restPositive glyph inRest).le (narrower glyph inRest)
        obtain ⟨text, sameWidth⟩ := ih restPositive restDescends inRest same
        rw [step, partsText_cons, partsWidth_cons, text, sameWidth]
        simp

/-- Every glyph is the last one of an indent that has only the widest glyph in front of it, however
often. -/
theorem partsText_eq_append {widest : Glyph ℚ} {rest : GlyphTable ℚ}
    (positive : ∀ glyph ∈ widest :: rest, 0 < glyph.width)
    (descends : (widest :: rest).Pairwise fun glyph next => next.width < glyph.width)
    (member : glyph ∈ widest :: rest)
    (room : remaining + Width.slack = count * widest.width + glyph.width) :
    partsText (counts remaining (widest :: rest)) =
        (List.replicate count widest.text.toList).flatten ++ glyph.text.toList ∧
      partsWidth (counts remaining (widest :: rest)) = count * widest.width + glyph.width := by
  obtain ⟨width, restPositive⟩ := List.forall_mem_cons.1 positive
  obtain ⟨narrower, restDescends⟩ := List.pairwise_cons.1 descends
  rcases List.mem_cons.1 member with rfl | inRest
  · have oneMore : count * glyph.width + glyph.width = (count + 1 : ℕ) * glyph.width := by
      push_cast
      ring
    rw [oneMore] at room ⊢
    obtain ⟨text, sameWidth⟩ := partsText_eq_copies positive room
    rw [text, List.replicate_succ', List.flatten_append]
    exact ⟨by simp, sameWidth⟩
  · obtain ⟨next, same, step⟩ := exists_counts_cons rest width room
      (restPositive glyph inRest).le (narrower glyph inRest)
    obtain ⟨text, sameWidth⟩ := partsText_eq_glyph restPositive restDescends inRest same
    rw [step, partsText_cons, partsWidth_cons, text, sameWidth]
    exact ⟨rfl, rfl⟩

end Rooms

section Recognition

variable [Profile ℚ] {engine : Engine ℚ}

/-- Whether the engine measures every indent, also one from a cache, as wide as its glyphs are
together. -/
def RecognisesIndents (engine : Engine ℚ) : Prop :=
  ∀ cache : Cache ℚ, cache.Sound (· = engine) → ∀ width,
    engine.indentWidth? (cache.indent engine width).1 =
      some (partsWidth (engine.composition width))

omit [Profile ℚ] in
/-- An indent that a single engine finds in its cache is the one that it composes. -/
theorem indent_of_sound {W : Type} [Width W] [Profile W] [DecidableEq W] {engine : Engine W}
    {cache : Cache W} (sound : cache.Sound (· = engine)) (width : W) :
    (cache.indent engine width).1 = engine.indent width :=
  (Cache.transparent_indent sound (Cache.distinct_eq engine) rfl width).1

theorem recognisesIndents_of_glyphs (measured : ∀ glyph ∈ engine.glyphs,
    engine.indentWidth? glyph.text.toList = some glyph.width) : engine.RecognisesIndents := by
  intro cache sound width
  rw [indent_of_sound sound]
  exact indentWidth?_partsText fun part member =>
    measured part.1 (mem_glyphs_of_mem_composition member)

theorem RecognisesIndents.indentWidth?_composition (recognises : engine.RecognisesIndents)
    (width : ℚ) : engine.indentWidth? (partsText (engine.composition width)) =
      some (partsWidth (engine.composition width)) := by
  rw [← recognises .empty .empty width, indent_of_sound .empty]
  rfl

/-- What is measured of an indent that has so many copies of the widest glyph in front of its last
one that it has a positive width in spite of the slack. -/
theorem RecognisesIndents.exists_widths (valid : engine.metrics.isValid = true)
    (recognises : engine.RecognisesIndents) {widest last : Glyph ℚ} {rest : GlyphTable ℚ}
    (table : engine.glyphs = widest :: rest) (member : last ∈ engine.glyphs) {count : ℕ}
    (many : Width.slack < count * widest.width) :
    ∃ before after, engine.indentWidth? (List.replicate count widest.text.toList).flatten =
        some before ∧ engine.indentWidth? last.text.toList = some after ∧
      before + after = count * widest.width + last.width := by
  have positive := glyphWidth_pos valid
  have descends := (isGreedy_composition valid one_pos).descends
  have lastPositive := positive last member
  have room : count * widest.width + last.width - Width.slack + Width.slack =
      count * widest.width + last.width := sub_add_cancel _ _
  have measured := recognises.indentWidth?_composition
    (count * widest.width + last.width - Width.slack)
  rw [composition_of_pos (by linarith)] at measured
  rw [table] at positive descends member measured
  obtain ⟨text, width⟩ := partsText_eq_append positive descends member room
  rw [text, width] at measured
  exact indentWidth?_append_eq_some.1 measured

/-- Recognising all indents means recognising all glyphs: the widest one in an indent of its own
copies, and each other one behind such copies. -/
theorem RecognisesIndents.glyphs (valid : engine.metrics.isValid = true)
    (recognises : engine.RecognisesIndents) :
    ∀ glyph ∈ engine.glyphs, engine.indentWidth? glyph.text.toList = some glyph.width := by
  intro glyph member
  obtain ⟨widest, rest, table⟩ := List.exists_cons_of_ne_nil (List.ne_nil_of_mem member)
  have inTable : widest ∈ engine.glyphs := table ▸ List.mem_cons_self
  obtain ⟨count, many⟩ := exists_nat_gt (Width.slack / widest.width)
  rw [div_lt_iff₀ (glyphWidth_pos valid widest inTable)] at many
  have widestMeasured : engine.indentWidth? widest.text.toList = some widest.width := by
    obtain ⟨before, after, first, second, sum⟩ :=
      recognises.exists_widths valid table inTable many
    rw [indentWidth?_replicate second count] at first
    obtain rfl := Option.some.inj first
    have same : ((count : ℚ) + 1) * after = (count + 1) * widest.width := by linarith
    rw [second, mul_left_cancel₀ (by positivity) same]
  obtain ⟨before, after, first, second, sum⟩ := recognises.exists_widths valid table member many
  rw [indentWidth?_replicate widestMeasured count] at first
  obtain rfl := Option.some.inj first
  rw [second, add_left_cancel sum]

end Recognition

theorem exists_letter {text : String} (single : text.length = 1) :
    ∃ letter : Char, text.toList = [letter] ∧ letter.toString = text := by
  rw [← String.length_toList, List.length_eq_one_iff] at single
  obtain ⟨letter, same⟩ := single
  refine ⟨letter, same, ?_⟩
  rw [← String.toList_inj, same]
  simp

/-- Indents of glyphs of one letter have a width, whatever widths are. -/
theorem isSome_indentWidth?_indent {W : Type} [Width W] {engine : Engine W}
    (single : ∀ glyph ∈ engine.glyphs, glyph.text.length = 1) (width : W) :
    (engine.indentWidth? (engine.indent width)).isSome = true := by
  rw [isSome_indentWidth?_iff]
  intro letter member
  obtain ⟨glyph, inTable, inGlyph⟩ := exists_glyph_of_mem_indent member
  obtain ⟨only, same, text⟩ := exists_letter (single glyph inTable)
  rw [same, List.mem_singleton] at inGlyph
  rw [inGlyph, text]
  exact GlyphTable.isSome_widthOf? inTable

/-- A glyph of one letter measures as wide as the table says. -/
theorem indentWidth?_of_letter {engine : Engine ℚ}
    (distinct : (engine.metrics.spaces.map Prod.fst).Nodup) {glyph : Glyph ℚ}
    (member : glyph ∈ engine.glyphs) (single : glyph.text.length = 1) :
    engine.indentWidth? glyph.text.toList = some glyph.width := by
  obtain ⟨letter, isLetter, text⟩ := exists_letter single
  have found : engine.glyphs.widthOf? letter.toString = some glyph.width := by
    rw [text]
    exact GlyphTable.widthOf?_of_mem distinct member
  rw [isLetter, indentWidth?, List.foldlM_cons, found]
  exact congrArg some (zero_add glyph.width)

/-- The engine over the metrics of a document recognises all of its indents if and only if it
recognises each of its glyphs as a text of the width that the table has for it. If the space glyphs
of the document have one letter each, this is so, and with doubles every indent has a width, too. -/
theorem recognisesIndents_iff [Profile ℚ] [Profile Float] {engine : Engine Float}
    {document : String} (accepted : Metrics.read document = .ok engine.metrics) :
    (engine.exact.RecognisesIndents ↔ ∀ glyph ∈ engine.exact.glyphs,
        engine.exact.indentWidth? glyph.text.toList = some glyph.width) ∧
      ((∀ entry ∈ engine.metrics.spaces, entry.1.length = 1) →
        engine.exact.RecognisesIndents ∧
          ∀ cache : Cache Float, cache.Sound (· = engine) → ∀ width,
            (engine.indentWidth? (cache.indent engine width).1).isSome = true) := by
  have valid : engine.exact.metrics.isValid = true :=
    Metrics.isValid_exact (Metrics.isValid_of_read accepted)
  have distinct : (engine.exact.metrics.spaces.map Prod.fst).Nodup := by
    have nodup := Metrics.nodup_spaces_of_read accepted
    simpa [Engine.exact, Metrics.exact, Function.comp_def] using nodup
  refine ⟨⟨RecognisesIndents.glyphs valid, recognisesIndents_of_glyphs⟩, fun single => ⟨?_, ?_⟩⟩
  · refine recognisesIndents_of_glyphs fun glyph member => ?_
    obtain ⟨entry, entryMember, same⟩ :=
      List.mem_map.1 (GlyphTable.mem_of_mem_ofSpaces member)
    have length : glyph.text.length = 1 := (Prod.mk.inj same).1 ▸ single entry entryMember
    exact indentWidth?_of_letter distinct member length
  · intro cache sound width
    rw [indent_of_sound sound]
    exact isSome_indentWidth?_indent (fun glyph member =>
      single _ (GlyphTable.mem_of_mem_ofSpaces member)) width

/-- A document with a space glyph of two letters. -/
def pairDocument : String :=
  "\x7b\"spaces\": \x7b\"ab\": 10\x7d\x7d"

/-- The engine over the metrics of that document. -/
def pairEngine : Engine Float :=
  ⟨⟨[], [("ab", 10.0)]⟩, defaultFallback⟩

theorem read_pairDocument : Metrics.read pairDocument = .ok pairEngine.metrics := by
  decide +kernel

/-- The indents of the glyph of two letters are not recognised, since neither letter is a glyph.
Those of the spaces of Unicode are. -/
theorem pairEngine_not_recognisesIndents :
    Metrics.read pairDocument = .ok pairEngine.metrics ∧
      pairEngine.indent 10.0 = ['a', 'b'] ∧ pairEngine.indentWidth? ['a', 'b'] = none ∧
      ¬ pairEngine.exact.RecognisesIndents ∧
      Metrics.read spacesDocument = .ok spacesEngine.metrics ∧
      (∀ entry ∈ spacesEngine.metrics.spaces, entry.1.length = 1) ∧
      spacesEngine.exact.RecognisesIndents := by
  have notGlyph : pairEngine.exact.indentWidth? "ab".toList ≠ some 10 := by decide +kernel
  have single : ∀ entry ∈ spacesEngine.metrics.spaces, entry.1.length = 1 := by decide +kernel
  refine ⟨read_pairDocument, by decide +kernel, by decide +kernel, fun recognises => ?_,
    read_spacesDocument, single, ((recognisesIndents_iff read_spacesDocument).2 single).1⟩
  exact notGlyph ((recognisesIndents_iff read_pairDocument).1.1 recognises ⟨10, "ab"⟩
    (by decide +kernel))

end Engine

end MessageBlocks
