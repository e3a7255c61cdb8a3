import MessageBlocks.Proofs.Layout.Greedy
import MessageBlocks.Proofs.Markup.RenderLaw
import MessageBlocks.Proofs.Text.Spacing

/-!
# Levels of lists

Only lists indent anything. Every line that stands on a page is at the margin or comes from a block,
and the blocks of markup without lists are at the margin, too. So rendering such markup asks for no
indent but the empty one, and its text is the same for all engines.
-/

namespace MessageBlocks

mutual

/-- How many lists stand around each other in a node. -/
def Markup.listLevels : Markup → Nat
  | .text _ | .lineBreak => 0
  | .bold children | .italic children | .strike children | .code children | .link _ children
  | .time _ _ children | .paragraph children | .blockquote children
  | .preformatted children => Markup.allListLevels children
  | .list _ items => ListItem.allListLevels items + 1

def Markup.allListLevels : List Markup → Nat
  | [] => 0
  | node :: rest => max (Markup.listLevels node) (Markup.allListLevels rest)

def ListItem.allListLevels : List ListItem → Nat
  | [] => 0
  | ⟨_, children⟩ :: rest => max (Markup.allListLevels children) (ListItem.allListLevels rest)

end

section Pages

variable {W : Type} [Width W] {line : Line W} {page : Page W} {lines : List (Line W)}

theorem Line.indent_of_mem_ofRun {text : List Char} (member : line ∈ Line.ofRun text) :
    line.indent = Width.zero := by
  rw [ofRun] at member
  split at member
  · cases member
  · obtain ⟨row, -, rfl⟩ := List.mem_map.1 member
    rfl

omit [Width W] in
theorem Page.mem_finish (member : line ∈ page.finish) : line ∈ page.lines := by
  have inTail := (List.dropWhile_suffix _).subset member
  rw [List.mem_reverse] at inTail
  exact List.mem_reverse.1 ((List.dropWhile_suffix _).subset inTail)

section Forall

variable {holds : Line W → Prop}

theorem Page.forall_pushAll (gap : holds (Line.flush [])) (onPage : ∀ line ∈ page.lines, holds line)
    (new : ∀ line ∈ lines, holds line) : ∀ line ∈ (page.pushAll lines).lines, holds line := by
  rcases page.pushAll_lines lines with same | same <;> rw [same]
  · exact List.forall_mem_append.2 ⟨onPage, new⟩
  · exact List.forall_mem_append.2
      ⟨List.forall_mem_append.2 ⟨onPage, List.forall_mem_singleton.2 gap⟩, new⟩

theorem Line.forall_ofRun
    (margin : ∀ row, '\n' ∉ row → Text.IsTrimmed row → holds (flush row)) (text : List Char) :
    ∀ line ∈ ofRun text, holds line := by
  rw [ofRun]
  split
  · exact List.forall_mem_nil _
  · rw [List.forall_mem_map]
    intro row member
    have oneLine : '\n' ∉ Text.trimSpaces row := fun inRow =>
      Text.lineFeed_notMem_lines text row member (Text.mem_of_mem_trimBy inRow)
    exact margin _ oneLine (Text.isTrimmed_trimSpaces row)

theorem Piece.forall_place {pieces : List (Piece W)} {pending : List Char}
    (margin : ∀ row, '\n' ∉ row → Text.IsTrimmed row → holds (Line.flush row))
    (blocks : ∀ lines, .block lines ∈ pieces → ∀ line ∈ lines, holds line)
    (onPage : ∀ line ∈ page.lines, holds line) :
    ∀ line ∈ (Piece.place page pending pieces).lines, holds line := by
  have gap : holds (Line.flush []) := margin [] List.not_mem_nil ⟨nofun, nofun⟩
  have run (text : List Char) := Line.forall_ofRun margin text
  induction pieces generalizing page pending with
  | nil => exact Page.forall_pushAll gap onPage (run pending)
  | cons piece rest ih =>
      have further : ∀ lines, .block lines ∈ rest → ∀ line ∈ lines, holds line :=
        fun lines member => blocks lines (List.mem_cons_of_mem _ member)
      have flushed : ∀ line ∈ (page.pushAll (Line.ofRun pending)).lines, holds line :=
        Page.forall_pushAll gap onPage (run pending)
      cases piece with
      | run text => exact ih further onPage
      | paragraph text =>
          have gapped : ∀ line ∈ (page.pushAll (Line.ofRun pending)).requestGap.lines,
              holds line := flushed
          exact ih further (Page.forall_pushAll gap gapped (run text))
      | block lines =>
          exact ih further (Page.forall_pushAll gap flushed (blocks lines List.mem_cons_self))

/-- A line on a page is a single one at the margin and trimmed, or one of a block. -/
theorem Piece.forall_lines {pieces : List (Piece W)}
    (margin : ∀ row, '\n' ∉ row → Text.IsTrimmed row → holds (Line.flush row))
    (blocks : ∀ lines, .block lines ∈ pieces → ∀ line ∈ lines, holds line) :
    ∀ line ∈ Piece.lines pieces, holds line := fun line member =>
  forall_place margin blocks (List.forall_mem_nil _) line (Page.mem_finish member)

end Forall

/-- A piece all of whose lines have indents that are allowed. -/
def Piece.Indents (allowed : W → Prop) (piece : Piece W) : Prop :=
  ∀ lines, piece = .block lines → ∀ line ∈ lines, allowed line.indent

omit [Width W] in
theorem Piece.indents_block {allowed : W → Prop} (all : ∀ line ∈ lines, allowed line.indent) :
    Piece.Indents allowed (.block lines) := by
  rintro _ ⟨⟩
  exact all

/-- What holds of the margin and of the indents of all pieces holds of the lines on a page. -/
theorem Piece.indents_lines {allowed : W → Prop} {pieces : List (Piece W)}
    (all : ∀ piece ∈ pieces, piece.Indents allowed) (margin : allowed Width.zero) :
    ∀ line ∈ Piece.lines pieces, allowed line.indent :=
  Piece.forall_lines (fun _ _ _ => margin) fun lines member => all _ member lines rfl

theorem Line.indent_of_mem_quoted {texts : List (List Char)} (member : line ∈ Line.quoted texts) :
    line.indent = Width.zero := by
  obtain ⟨text, -, rfl⟩ := List.mem_map.1 member
  rfl

theorem Line.indent_of_mem_fenced {text : List Char} (member : line ∈ Line.fenced text) :
    line.indent = Width.zero := by
  simp only [fenced, List.cons_append, List.mem_cons, List.mem_append, List.mem_map,
    List.not_mem_nil, or_false] at member
  rcases member with rfl | ⟨row, -, rfl⟩ | rfl <;> rfl

end Pages

/-! Markup without lists is rendered alike by all engines. -/

theorem Line.shown_of_margin (engine : Engine ℚ) {line : Line ℚ} (margin : line.indent = 0) :
    line.shown engine = line.text := by
  rw [shown, margin]
  split
  · next blank => exact (List.isEmpty_iff.1 blank).symm
  · rw [Engine.indent, Engine.composition_of_nonpos le_rfl]
    rfl

theorem Line.map_shown_lines (engine other : Engine ℚ) {pieces : List (Piece ℚ)}
    (flush : ∀ piece ∈ pieces, piece.Indents (· = 0)) :
    (Piece.lines pieces).map (Line.shown engine) = (Piece.lines pieces).map (Line.shown other) := by
  refine List.map_congr_left fun line member => ?_
  have margin : line.indent = 0 := Piece.indents_lines flush rfl line member
  rw [shown_of_margin engine margin, shown_of_margin other margin]

theorem Piece.flatten_answer (engine other : Engine ℚ) {piece : Piece ℚ}
    (flush : piece.Indents (· = 0)) :
    piece.flatten.answer engine = piece.flatten.answer other := by
  have rows := Line.map_shown_lines engine other (List.forall_mem_singleton.2 flush)
  cases piece with
  | run text => rfl
  | paragraph text | block lines =>
      rw [Piece.flatten, Query.answer_map, Query.answer_map, Line.renderAll_answer,
        Line.renderAll_answer, rows]
      all_goals nofun

section Listless

variable (engine other : Engine ℚ)

mutual

theorem Markup.piece_of_listless (depth : Nat) : ∀ node : Markup, node.listLevels = 0 →
    (Markup.piece depth node).answer engine = (Markup.piece depth node).answer other ∧
      ((Markup.piece depth node).answer engine).Indents (· = 0)
  | .text _, _ | .code _, _ | .time _ _ _, _ | .lineBreak, _ => ⟨rfl, nofun⟩
  | .bold children, listless | .italic children, listless | .strike children, listless
  | .link _ children, listless | .paragraph children, listless => by
      have same := Markup.run_of_listless children listless
      rw [Markup.piece, Query.answer_map, Query.answer_map, same]
      exact ⟨rfl, nofun⟩
  | .blockquote children, listless => by
      obtain ⟨same, flush⟩ := Markup.pieces_of_listless depth children listless
      rw [Markup.piece]
      simp only [Query.answer_bind, Query.answer_pure, Line.renderAll_answer]
      rw [← same, Line.map_shown_lines engine other flush]
      exact ⟨rfl, Piece.indents_block fun line => Line.indent_of_mem_quoted⟩
  | .preformatted children, listless => by
      have same := Markup.verbatim_of_listless children listless
      rw [Markup.piece, Query.answer_map, Query.answer_map, same]
      exact ⟨rfl, Piece.indents_block fun line => Line.indent_of_mem_fenced⟩
  | .list _ _, listless => nomatch listless

theorem Markup.pieces_of_listless (depth : Nat) : ∀ nodes : List Markup,
    Markup.allListLevels nodes = 0 →
    (Markup.pieces depth nodes).answer engine = (Markup.pieces depth nodes).answer other ∧
      ∀ piece ∈ (Markup.pieces depth nodes).answer engine, piece.Indents (· = 0)
  | [], _ => ⟨rfl, List.forall_mem_nil _⟩
  | node :: rest, listless => by
      obtain ⟨first, others⟩ := Nat.max_eq_zero_iff.1 listless
      obtain ⟨same, flush⟩ := Markup.piece_of_listless depth node first
      obtain ⟨sameRest, flushRest⟩ := Markup.pieces_of_listless depth rest others
      simp only [Markup.pieces, Query.answer_bind, Query.answer_pure]
      exact ⟨congrArg₂ _ same sameRest, List.forall_mem_cons.2 ⟨flush, flushRest⟩⟩

/-- The text of a run without lists is the same for all engines. -/
theorem Markup.run_of_listless : ∀ nodes : List Markup, Markup.allListLevels nodes = 0 →
    (Markup.run nodes : Query ℚ _).answer engine = (Markup.run nodes).answer other
  | [], _ => rfl
  | node :: rest, listless => by
      obtain ⟨first, others⟩ := Nat.max_eq_zero_iff.1 listless
      obtain ⟨same, flush⟩ := Markup.piece_of_listless 0 node first
      have sameRest := Markup.run_of_listless rest others
      simp only [Markup.run, Query.answer_bind, Query.answer_pure]
      rw [← same, Piece.flatten_answer engine other flush, sameRest]

theorem Markup.verbatim_of_listless : ∀ nodes : List Markup, Markup.allListLevels nodes = 0 →
    (Markup.verbatim nodes : Query ℚ _).answer engine = (Markup.verbatim nodes).answer other
  | [], _ => rfl
  | node :: rest, listless => by
      obtain ⟨first, others⟩ := Nat.max_eq_zero_iff.1 listless
      have sameRest := Markup.verbatim_of_listless rest others
      cases node with
      | link target children =>
          have same := Markup.run_of_listless children first
          simp only [Markup.verbatim, Query.answer_bind, Query.answer_pure]
          rw [same, sameRest]
      | _ =>
          simp only [Markup.verbatim, Query.answer_bind, Query.answer_pure]
          rw [sameRest]

end

end Listless

end MessageBlocks
