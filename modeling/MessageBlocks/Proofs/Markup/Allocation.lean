import MessageBlocks.Proofs.Layout.Allocation
import MessageBlocks.Proofs.Markup.Alignment
import MessageBlocks.Proofs.Markup.Levels

/-!
# Room for the indents of markup

Markers are short, since numbers have 64 bits. So each list around a line adds no more to its indent
than a marker of the greatest length and a space, all as wide as the widest letter. Whatever indents
rendering asks for are bounded by that and the number of lists around each other.
-/

namespace MessageBlocks

/-- The greatest length of a marker. -/
def markerLimit : Nat :=
  21

namespace Numbering

theorem length_romanFrom_cons (number value : ℕ) (numeral : List Char)
    (rest : List (ℕ × List Char)) :
    (romanFrom number ((value, numeral) :: rest)).length =
      number / value * numeral.length + (romanFrom (number % value) rest).length := by
  simp [romanFrom]

/-- A decimal place takes four letters at most. -/
theorem length_romanFrom_place (scale : ℕ) {number : ℕ} (less : number / scale < 10)
    (one five ten : Char) (rest : List (ℕ × List Char)) :
    (romanFrom number ((scale * 9, [one, ten]) :: (scale * 5, [five]) ::
        (scale * 4, [one, five]) :: (scale, [one]) :: rest)).length ≤
      4 + (romanFrom (number % scale) rest).length := by
  simp only [length_romanFrom_cons, List.length_cons, List.length_nil,
    Nat.mod_mul_right_div_self, Nat.mod_mul_right_mod, ← Nat.div_div_eq_div_mul]
  generalize number / scale = digit at less ⊢
  omega

theorem length_roman_le {number : ℕ} (small : number ≤ romanMax) :
    (roman number).length ≤ 15 := by
  rw [romanMax] at small
  have thousands : (roman number).length =
      number / 1000 * 1 + (romanFrom (number % 1000) (romanNumerals.drop 1)).length :=
    length_romanFrom_cons number 1000 ['m'] _
  have hundreds : (romanFrom (number % 1000) (romanNumerals.drop 1)).length ≤
      4 + (romanFrom (number % 1000 % 100) (romanNumerals.drop 5)).length :=
    length_romanFrom_place 100 (by omega) 'c' 'd' 'm' _
  have tens : (romanFrom (number % 1000 % 100) (romanNumerals.drop 5)).length ≤
      4 + (romanFrom (number % 1000 % 100 % 10) (romanNumerals.drop 9)).length :=
    length_romanFrom_place 10 (by omega) 'x' 'l' 'c' _
  have ones : (romanFrom (number % 1000 % 100 % 10) (romanNumerals.drop 9)).length ≤ 4 + 0 :=
    length_romanFrom_place 1 (by omega) 'i' 'v' 'x' []
  omega

theorem length_digits_le {number : ℕ} (small : number ≤ 2 ^ 63) :
    (Number.digits number).length ≤ 19 :=
  (Nat.length_toDigits_le_iff (by decide) (by decide)).2 (by omega)

theorem length_alphaReversed_le (first : Char) (count : ℕ) {number : ℕ}
    (small : number < 26 ^ count) : (alphaReversed first number).length ≤ count := by
  induction count generalizing number with
  | zero =>
      obtain rfl := Nat.lt_one_iff.1 small
      simp [alphaReversed]
  | succ count ih =>
      cases number with
      | zero => simp [alphaReversed]
      | succ number =>
          have smaller : number / 26 < 26 ^ count := by
            rw [Nat.pow_succ] at small
            omega
          rw [alphaReversed, List.length_cons]
          exact Nat.succ_le_succ (ih smaller)

theorem length_positiveText_le (numbering : Numbering) {number : ℕ} (small : number < 2 ^ 63) :
    (numbering.positiveText number).length ≤ 19 := by
  have digits := length_digits_le small.le
  have letters (first : Char) : (alpha first number).length ≤ 19 := by
    rw [alpha, List.length_reverse]
    exact length_alphaReversed_le first 19 (by omega)
  cases numbering with
  | decimal => exact digits
  | lowerAlpha => exact letters 'a'
  | upperAlpha => exact letters 'A'
  | lowerRoman =>
      rw [positiveText]
      split
      · exact digits
      · exact (length_roman_le (by omega)).trans (by omega)
  | upperRoman =>
      rw [positiveText]
      split
      · exact digits
      · rw [List.length_map]
        exact (length_roman_le (by omega)).trans (by omega)

theorem length_text_le (numbering : Numbering) (number : Int64) :
    (numbering.text number).length ≤ 20 := by
  have above := number.toInt_lt
  have below := number.le_toInt
  rw [text]
  split
  · exact (length_positiveText_le numbering (by omega)).trans (by omega)
  · cases value : number.toInt with
    | ofNat magnitude =>
        rw [value, Int.ofNat_eq_natCast] at above
        rw [Number.intText]
        exact (length_digits_le (by omega)).trans (by omega)
    | negSucc magnitude =>
        rw [value] at below
        rw [Number.intText, List.length_cons]
        exact Nat.succ_le_succ (length_digits_le (by omega))

end Numbering

/-- The longest marker is that of the least number. -/
theorem ListKind.length_marker_le (kind : ListKind) (depth : Nat) (number : Int64) :
    (kind.marker depth number).length ≤ markerLimit := by
  cases kind with
  | unordered => exact (by decide : 1 ≤ markerLimit)
  | ordered numbering start =>
      rw [marker, List.length_append]
      exact Nat.succ_le_succ (numbering.length_text_le number)

example : (ListKind.ordered .decimal 1).marker 0 Int64.minValue =
    "-9223372036854775808.".toList := by decide +kernel

section Lines

variable {W : Type} [Width W] {engine : Engine W} {allowed : W → Prop}

theorem Line.asks_render {line : Line W} (isAllowed : allowed line.indent) :
    line.render.Asks engine allowed := by
  rw [render]
  split
  · trivial
  · simpa using isAllowed

theorem Line.asks_renderAll (engine : Engine W) {lines : List (Line W)}
    (all : ∀ line ∈ lines, allowed line.indent) : (renderAll lines).Asks engine allowed := by
  induction lines with
  | nil => trivial
  | cons line rest ih =>
      obtain ⟨first, others⟩ := List.forall_mem_cons.1 all
      simp [renderAll, asks_render first, ih others]

theorem asks_measureAll (texts : List (List Char)) : (measureAll texts).Asks engine allowed := by
  induction texts with
  | nil => trivial
  | cons text rest ih => simp [measureAll, ih]

theorem ItemBody.asks_ofLines {lines : List (Line W)}
    (all : ∀ line ∈ lines, allowed line.indent) : (ofLines lines).Asks engine allowed := by
  cases lines with
  | nil => trivial
  | cons line rest => simp [ofLines, Line.asks_render (all line List.mem_cons_self)]

theorem Piece.asks_flatten {piece : Piece W} (indents : piece.Indents allowed)
    (margin : allowed Width.zero) : piece.flatten.Asks engine allowed := by
  have all := Piece.indents_lines (List.forall_mem_singleton.2 indents) margin
  cases piece with
  | run text => trivial
  | paragraph text | block lines => exact Query.asks_map.2 (Line.asks_renderAll engine all)

end Lines

/-- A list around a line adds no more to its indent than the given step. -/
structure Engine.StepsBy (engine : Engine ℚ) (step : ℚ) : Prop where
  nonneg : ∀ text, 0 ≤ engine.measure text
  marker : ∀ (kind : ListKind) (depth : Nat) (number : Int64),
    engine.measure (kind.marker depth number) + engine.measure [' '] ≤ step

section Steps

variable {engine : Engine ℚ} {step : ℚ}

theorem Engine.StepsBy.widest (steps : engine.StepsBy step) (kind : ListKind) (depth : Nat)
    (items : List ListItem) : kind.widest engine depth items + engine.measure [' '] ≤ step := by
  rcases kind.widest_cases engine depth items with zero | ⟨marker, member, same⟩
  · have bound := steps.marker .unordered 0 0
    have bullet := steps.nonneg (ListKind.unordered.marker 0 0)
    linarith
  · obtain ⟨number, -, rfl⟩ := List.mem_map.1 member
    exact same ▸ steps.marker kind depth number

theorem Engine.StepsBy.step_nonneg (steps : engine.StepsBy step) : 0 ≤ step := by
  have bullet := steps.nonneg (ListKind.unordered.marker 0 0)
  have space := steps.nonneg [' ']
  have bound := steps.marker .unordered 0 0
  linarith

theorem Engine.StepsBy.margin_le (steps : engine.StepsBy step) (levels : Nat) :
    Width.zero ≤ levels * step :=
  mul_nonneg (Nat.cast_nonneg levels) steps.step_nonneg

/-- The lines of an item are indented by a step more than those of its content. -/
theorem ListItem.indent_le_of_mem_lines (steps : engine.StepsBy step) {widest bound : ℚ}
    (wide : widest + engine.measure [' '] ≤ step) (nonneg : 0 ≤ bound) (marker : List Char)
    {body : List (Line ℚ)} (content : ∀ line ∈ body, line.indent ≤ bound) :
    ∀ line ∈ ListItem.lines engine widest marker body, line.indent ≤ bound + step := by
  have space := steps.nonneg [' ']
  have padding : widest - engine.measure marker ≤ bound + step := by
    have markerNonneg := steps.nonneg marker
    linarith
  cases body with
  | nil => exact List.forall_mem_singleton.2 padding
  | cons first rest =>
      refine List.forall_mem_cons.2 ⟨padding, fun line member => ?_⟩
      obtain ⟨inner, innerMember, rfl⟩ := List.mem_map.1 member
      split
      · exact add_nonneg nonneg steps.step_nonneg
      · have innerBound := content inner (List.mem_cons_of_mem _ innerMember)
        change widest + engine.measure [' '] + inner.indent ≤ bound + step
        linarith

theorem ListKind.indent_le_of_mem_itemLines (steps : engine.StepsBy step) {kind : ListKind}
    {depth : Nat} {items : List ListItem} {bound : ℚ} (nonneg : 0 ≤ bound)
    (contents : ∀ item ∈ items, ∀ line ∈ (Markup.lines (depth + 1) item.children).answer engine,
      line.indent ≤ bound) :
    ∀ line ∈ kind.itemLines engine depth items, line.indent ≤ bound + step := by
  intro line member
  obtain ⟨number, item, itemMember, inLines, -⟩ := exists_of_mem_itemLines member
  exact ListItem.indent_le_of_mem_lines steps (steps.widest kind depth items) nonneg
    (kind.marker depth number) (contents item itemMember) line inLines

mutual

theorem Markup.asks_piece (steps : engine.StepsBy step) (depth : Nat) :
    ∀ (node : Markup) (levels : Nat), node.listLevels ≤ levels →
      (Markup.piece depth node).Asks engine (· ≤ levels * step) ∧
        ((Markup.piece depth node).answer engine).Indents (· ≤ levels * step)
  | .text _, _, _ | .code _, _, _ | .time _ _ _, _, _ | .lineBreak, _, _ => ⟨trivial, nofun⟩
  | .bold children, levels, few | .italic children, levels, few | .strike children, levels, few
  | .link _ children, levels, few | .paragraph children, levels, few => by
      have asks := Markup.asks_run steps children levels few
      rw [Markup.piece, Query.asks_map, Query.answer_map]
      exact ⟨asks, nofun⟩
  | .blockquote children, levels, few => by
      obtain ⟨asks, indents⟩ := Markup.asks_pieces steps depth children levels few
      have lines := Line.asks_renderAll engine
        (Piece.indents_lines indents (steps.margin_le levels))
      simp only [Markup.piece, Query.asks_bind, Query.answer_bind, Query.answer_pure,
        Query.asks_pure, and_true]
      refine ⟨⟨asks, lines⟩, Piece.indents_block fun line member => ?_⟩
      rw [Line.indent_of_mem_quoted member]
      exact steps.margin_le levels
  | .preformatted children, levels, few => by
      have asks := Markup.asks_verbatim steps children levels few
      rw [Markup.piece, Query.asks_map, Query.answer_map]
      refine ⟨asks, Piece.indents_block fun line member => ?_⟩
      rw [Line.indent_of_mem_fenced member]
      exact steps.margin_le levels
  | .list kind items, 0, few => nomatch few
  | .list kind items, levels + 1, few => by
      obtain ⟨asks, contents⟩ :=
        ListItem.asks_bodies steps (depth + 1) items levels (Nat.le_of_succ_le_succ few)
      have wider : (levels : ℚ) * step + step = (levels + 1 : ℕ) * step := by
        push_cast
        ring
      have less : (levels : ℚ) * step ≤ (levels + 1 : ℕ) * step :=
        wider ▸ le_add_of_nonneg_right steps.step_nonneg
      rw [Markup.piece_list_answer, ← wider]
      refine ⟨?_, Piece.indents_block
        (ListKind.indent_le_of_mem_itemLines steps (steps.margin_le levels) contents)⟩
      simp only [Markup.piece, Query.asks_bind, Query.asks_width, Query.asks_pure, and_true,
        true_and]
      exact ⟨asks_measureAll _, asks.mono fun width le => le.trans (less.trans_eq wider.symm)⟩

theorem Markup.asks_pieces (steps : engine.StepsBy step) (depth : Nat) :
    ∀ (nodes : List Markup) (levels : Nat), Markup.allListLevels nodes ≤ levels →
      (Markup.pieces depth nodes).Asks engine (· ≤ levels * step) ∧
        ∀ piece ∈ (Markup.pieces depth nodes).answer engine, piece.Indents (· ≤ levels * step)
  | [], _, _ => ⟨trivial, List.forall_mem_nil _⟩
  | node :: rest, levels, few => by
      obtain ⟨first, others⟩ := Nat.max_le.1 few
      obtain ⟨asks, indents⟩ := Markup.asks_piece steps depth node levels first
      obtain ⟨asksRest, indentsRest⟩ := Markup.asks_pieces steps depth rest levels others
      simp only [Markup.pieces, Query.asks_bind, Query.answer_bind, Query.answer_pure,
        Query.asks_pure, and_true]
      exact ⟨⟨asks, asksRest⟩, List.forall_mem_cons.2 ⟨indents, indentsRest⟩⟩

theorem Markup.asks_run (steps : engine.StepsBy step) :
    ∀ (nodes : List Markup) (levels : Nat), Markup.allListLevels nodes ≤ levels →
      (Markup.run nodes).Asks engine (· ≤ levels * step)
  | [], _, _ => trivial
  | node :: rest, levels, few => by
      obtain ⟨first, others⟩ := Nat.max_le.1 few
      obtain ⟨asks, indents⟩ := Markup.asks_piece steps 0 node levels first
      have asksRest := Markup.asks_run steps rest levels others
      simp only [Markup.run, Query.asks_bind, Query.asks_pure, and_true]
      exact ⟨asks, Piece.asks_flatten indents (steps.margin_le levels), asksRest⟩

theorem Markup.asks_verbatim (steps : engine.StepsBy step) :
    ∀ (nodes : List Markup) (levels : Nat), Markup.allListLevels nodes ≤ levels →
      (Markup.verbatim nodes).Asks engine (· ≤ levels * step)
  | [], _, _ => trivial
  | node :: rest, levels, few => by
      obtain ⟨first, others⟩ := Nat.max_le.1 few
      have asksRest := Markup.asks_verbatim steps rest levels others
      cases node with
      | link target children =>
          have asks := Markup.asks_run steps children levels first
          simp only [Markup.verbatim, Query.asks_bind, Query.asks_pure, and_true]
          exact ⟨asks, asksRest⟩
      | _ =>
          simp only [Markup.verbatim, Query.asks_bind, Query.asks_pure, and_true]
          exact asksRest

theorem ListItem.asks_bodies (steps : engine.StepsBy step) (depth : Nat) :
    ∀ (items : List ListItem) (levels : Nat), ListItem.allListLevels items ≤ levels →
      (ListItem.bodies depth items).Asks engine (· ≤ levels * step) ∧
        ∀ item ∈ items, ∀ line ∈ (Markup.lines depth item.children).answer engine,
          line.indent ≤ levels * step
  | [], _, _ => ⟨trivial, List.forall_mem_nil _⟩
  | ⟨number, children⟩ :: rest, levels, few => by
      obtain ⟨first, others⟩ := Nat.max_le.1 few
      obtain ⟨asks, indents⟩ := Markup.asks_pieces steps depth children levels first
      obtain ⟨asksRest, contents⟩ := ListItem.asks_bodies steps depth rest levels others
      have lines := Piece.indents_lines indents (steps.margin_le levels)
      simp only [ListItem.bodies, Query.asks_bind, Query.asks_pure, and_true]
      refine ⟨⟨asks, ItemBody.asks_ofLines lines, asksRest⟩, List.forall_mem_cons.2 ⟨?_, contents⟩⟩
      rw [Markup.lines_answer]
      exact lines

end

/-- Rendering asks for no indent wider than a step for each of the lists around each other. -/
theorem Markup.asks_render (steps : engine.StepsBy step) {nodes : List Markup} {levels : Nat}
    (few : Markup.allListLevels nodes ≤ levels) :
    (Markup.render nodes).Asks engine (· ≤ levels * step) := by
  obtain ⟨asks, indents⟩ := Markup.asks_pieces steps 0 nodes levels few
  have lines := Line.asks_renderAll engine
    (Piece.indents_lines indents (steps.margin_le levels))
  rw [Markup.render, Markup.lines]
  simp only [Query.asks_bind, Query.asks_map, Query.answer_map, Query.asks_pure, and_true]
  exact ⟨asks, lines⟩

end Steps

/-- The step of an engine with valid metrics, given a bound on the widths of letters. -/
theorem Engine.stepsBy {engine : Engine ℚ} {most : ℚ} (valid : engine.metrics.isValid = true)
    (nonneg : 0 ≤ engine.fallback) (letters : ∀ entry ∈ engine.metrics.letters, entry.2 ≤ most)
    (fallback : engine.fallback ≤ most) : engine.StepsBy ((markerLimit + 1 : ℕ) * most) where
  nonneg := measure_nonneg valid nonneg
  marker kind depth number := by
    have mostNonneg : 0 ≤ most := nonneg.trans fallback
    have markerWidth := measure_le letters fallback (kind.marker depth number)
    have spaceWidth := measure_le letters fallback [' ']
    have length : ((kind.marker depth number).length : ℚ) * most ≤ markerLimit * most :=
      mul_le_mul_of_nonneg_right (by exact_mod_cast kind.length_marker_le depth number) mostNonneg
    push_cast [List.length_singleton] at spaceWidth ⊢
    linarith

end MessageBlocks
