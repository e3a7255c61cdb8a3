import MessageBlocks.Proofs.Markup.Marks
import MessageBlocks.Proofs.Markup.Outline

/-!
# Laws of lines

A law of lines says something of a line by itself. It is given by one rule for each kind of line
that the renderer makes: the lines of runs, those of fenced text, quoted lines and the lines of
items. The lines of markup then obey it at all depths. The first such law is that every line is a
single one.
-/

namespace MessageBlocks

variable {W : Type} [Width W] {engine : Engine W} {fences : Prop} {holds : Line W → Prop}

omit [Width W] in
/-- Whether something holds of all lines of a block. -/
def Piece.Holds (holds : Line W → Prop) (piece : Piece W) : Prop :=
  ∀ lines, piece = .block lines → ∀ line ∈ lines, holds line

omit [Width W] in
theorem Piece.holds_block {lines : List (Line W)} (all : ∀ line ∈ lines, holds line) :
    Piece.Holds holds (.block lines) := by
  rintro _ ⟨⟩
  exact all

/-- A text as a line of a quote. -/
def Line.quote (text : List Char) : Line W :=
  Line.flush (if text.isEmpty then ['>'] else '>' :: ' ' :: text)

theorem Line.quoted_eq_map (texts : List (List Char)) :
    (Line.quoted texts : List (Line W)) = texts.map Line.quote :=
  rfl

/-- The kinds of lines that obey a law, with fenced text among them or without. -/
structure LineLaw (engine : Engine W) (fences : Prop) (holds : Line W → Prop) : Prop where
  margin (row : List Char) : '\n' ∉ row → Text.IsTrimmed row → holds (Line.flush row)
  fenced (text : List Char) : fences → ∀ line ∈ Line.fenced text, holds line
  quoted (line : Line W) : holds line → holds (Line.quote (line.shown engine))
  item (kind : ListKind) (depth : Nat) (number : Int64) (widest : W) {body : List (Line W)} :
    (∀ first ∈ body.head?, first.isBlank = false) → (∀ line ∈ body, holds line) →
      ∀ line ∈ ListItem.lines engine widest (kind.marker depth number) body, holds line

namespace LineLaw

theorem onPage (law : LineLaw engine fences holds) {pieces : List (Piece W)}
    (all : ∀ piece ∈ pieces, piece.Holds holds) : ∀ line ∈ Piece.lines pieces, holds line :=
  Piece.forall_lines law.margin fun lines member => all _ member lines rfl

theorem inQuote (law : LineLaw engine fences holds) {lines : List (Line W)}
    (all : ∀ line ∈ lines, holds line) :
    ∀ quote ∈ Line.quoted (lines.map (Line.shown engine)), holds quote := by
  rw [Line.quoted_eq_map, List.forall_mem_map, List.forall_mem_map]
  exact fun line member => law.quoted line (all line member)

mutual

theorem piece (law : LineLaw engine fences holds) (depth : Nat) :
    ∀ node : Markup, fences ∨ node.IsApart → ((Markup.piece depth node).answer engine).Holds holds
  | .text _, _ | .code _, _ | .time _ _ _, _ | .lineBreak, _ => nofun
  | .bold _, _ | .italic _, _ | .strike _, _ | .link _ _, _ | .paragraph _, _ => by
      rw [Markup.piece, Query.answer_map]
      nofun
  | .blockquote children, allowed => by
      simp only [Markup.piece, Query.answer_bind, Query.answer_pure, Line.renderAll_answer]
      exact Piece.holds_block (law.inQuote (law.onPage (law.pieces depth children allowed)))
  | .preformatted _, allowed => by
      rw [Markup.piece, Query.answer_map]
      exact Piece.holds_block (law.fenced _ (allowed.resolve_right id))
  | .list kind items, allowed => by
      rw [Markup.piece_list_answer]
      refine Piece.holds_block fun line member => ?_
      obtain ⟨number, item, itemMember, inItem, -⟩ := ListKind.exists_of_mem_itemLines member
      have all := law.items (depth + 1) items allowed item itemMember
      refine law.item kind depth number _ (fun first isFirst => ?_) all line inItem
      rw [Markup.lines_answer] at isFirst
      obtain ⟨rest, same⟩ := List.head?_eq_some_iff.1 isFirst
      exact Piece.isBlank_first same

theorem pieces (law : LineLaw engine fences holds) (depth : Nat) :
    ∀ nodes : List Markup, fences ∨ Markup.AreApart nodes →
      ∀ piece ∈ (Markup.pieces depth nodes).answer engine, piece.Holds holds
  | [], _ => List.forall_mem_nil _
  | node :: rest, allowed => by
      rw [Markup.pieces_answer_cons]
      exact List.forall_mem_cons.2 ⟨law.piece depth node (allowed.imp_right And.left),
        law.pieces depth rest (allowed.imp_right And.right)⟩

theorem items (law : LineLaw engine fences holds) (depth : Nat) :
    ∀ items : List ListItem, fences ∨ ListItem.AreApart items → ∀ item ∈ items,
      ∀ line ∈ (Markup.lines depth item.children).answer engine, holds line
  | [], _ => List.forall_mem_nil _
  | ⟨_, children⟩ :: rest, allowed => by
      rw [List.forall_mem_cons, Markup.lines_answer]
      exact ⟨law.onPage (law.pieces depth children (allowed.imp_right And.left)),
        law.items depth rest (allowed.imp_right And.right)⟩

end

/-- What is a law of lines holds of the lines of markup. -/
theorem lines (law : LineLaw engine fences holds) (depth : Nat) {nodes : List Markup}
    (allowed : fences ∨ Markup.AreApart nodes) :
    ∀ line ∈ (Markup.lines depth nodes).answer engine, holds line := by
  rw [Markup.lines_answer]
  exact law.onPage (law.pieces depth nodes allowed)

end LineLaw

/-! Runs and fenced texts are cut at their line feeds, and neither markers nor indents have any. -/

theorem Line.lineFeed_notMem_shown (indents : ∀ width, '\n' ∉ engine.indent width) {line : Line W}
    (single : '\n' ∉ line.text) : '\n' ∉ line.shown engine := by
  rw [shown]
  split
  · exact List.not_mem_nil
  · exact fun member => (List.mem_append.1 member).elim (indents _) single

theorem singleLaw (indents : ∀ width, '\n' ∉ engine.indent width) :
    LineLaw engine True fun line => '\n' ∉ line.text where
  margin _ oneLine _ := oneLine
  fenced text _ := by
    intro line member
    simp only [Line.fenced, List.cons_append, List.mem_cons, List.mem_append, List.mem_map,
      List.not_mem_nil, or_false] at member
    have fence : '\n' ∉ (Line.fence : Line W).text := by simp [Line.fence, Line.flush]
    rcases member with rfl | ⟨row, rowMember, rfl⟩ | rfl
    · exact fence
    · exact Text.lineFeed_notMem_lines _ row rowMember
    · exact fence
  quoted line single := by
    have oneLine := Line.lineFeed_notMem_shown indents single
    rw [Line.quote, Line.text_flush]
    split
    · decide
    · simp [oneLine]
  item kind depth number widest body _ single := by
    have marker := (IsSober.marker kind depth number).notMem.2.2
    cases body with
    | nil => exact List.forall_mem_singleton.2 marker
    | cons first rest =>
        obtain ⟨firstSingle, restSingle⟩ := List.forall_mem_cons.1 single
        have shown := Line.lineFeed_notMem_shown indents firstSingle
        refine List.forall_mem_cons.2 ⟨by simp [marker, shown], ?_⟩
        rw [List.forall_mem_map]
        intro line member
        split
        · exact List.not_mem_nil
        · exact restSingle line member

theorem Markup.lineFeed_notMem_lines (indents : ∀ width, '\n' ∉ engine.indent width) (depth : Nat)
    (nodes : List Markup) :
    ∀ line ∈ (Markup.lines depth nodes).answer engine, '\n' ∉ line.text :=
  (singleLaw indents).lines depth (.inl trivial)

end MessageBlocks
