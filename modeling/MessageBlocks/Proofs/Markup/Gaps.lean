import MessageBlocks.Proofs.Markup.Separation
import MessageBlocks.Proofs.Markup.Spacing

/-!
# Gaps in the lines of markup

Blocks put markers, indents and the prefixes of quotes in front of their lines, none of them with
more than one space behind ink, and without preformatted text all lines are trimmed. So markup has a
gap in its lines exactly if it has one in its plain text, where blocks stand on lines of their own.
-/

namespace MessageBlocks

open Text

/-- Whether one of some lines has a gap. -/
def Line.HaveGap {W : Type} (lines : List (Line W)) : Prop :=
  ∃ line ∈ lines, HasGap line.text

namespace Line

section Lists

variable {W : Type}

theorem haveGap_append (first second : List (Line W)) :
    HaveGap (first ++ second) ↔ HaveGap first ∨ HaveGap second := by
  simp only [HaveGap, List.mem_append, or_and_right, exists_or]

theorem haveGap_cons (line : Line W) (rest : List (Line W)) :
    HaveGap (line :: rest) ↔ HasGap line.text ∨ HaveGap rest := by
  simp only [HaveGap, List.mem_cons, exists_eq_or_imp]

theorem haveGap_map {lines : List (Line W)} {change : Line W → Line W}
    (same : ∀ line ∈ lines, (HasGap (change line).text ↔ HasGap line.text)) :
    HaveGap (lines.map change) ↔ HaveGap lines := by
  simp only [HaveGap, List.mem_map, exists_exists_and_eq_and]
  exact exists_congr fun line => and_congr_right (same line)

/-- Empty lines have no gaps. -/
theorem haveGap_nonBlank (lines : List (Line W)) : HaveGap (nonBlank lines) ↔ HaveGap lines := by
  constructor
  · rintro ⟨line, member, gap⟩
    exact ⟨line, List.mem_of_mem_filter member, gap⟩
  · rintro ⟨line, member, gap⟩
    refine ⟨line, List.mem_filter.2 ⟨member, ?_⟩, gap⟩
    cases blank : line.isBlank with
    | false => rfl
    | true =>
        rw [List.isEmpty_iff.1 blank] at gap
        cases gap

end Lists

variable {W : Type} [Width W] {engine : Engine W}

theorem haveGap_ofRun (text : List Char) :
    HaveGap (ofRun text : List (Line W)) ↔ HasGap text := by
  rw [ofRun]
  split
  · next blank => exact iff_of_false (by simp [HaveGap]) (not_hasGap_of_blank blank)
  · conv_rhs => rw [← unlines_lines text, hasGap_unlines]
    simp only [HaveGap, List.mem_map, exists_exists_and_eq_and, text_flush, hasGap_trimSpaces]

theorem isInk_quoteSign : ∀ character ∈ ['>'], isInk character = true :=
  List.forall_mem_singleton.2 rfl

section Spaceless

variable (spaceless : engine.Spaceless)

include spaceless

theorem isTrimmed_shown {line : Line W} (isTrimmed : IsTrimmed line.text) :
    IsTrimmed (line.shown engine) := by
  rw [shown]
  split
  · exact isTrimmed_nil
  · exact isTrimmed_prepend (spaceless.isInk _) isTrimmed

theorem hasGap_shown {line : Line W} (isTrimmed : IsTrimmed line.text) :
    HasGap (line.shown engine) ↔ HasGap line.text := by
  rw [shown]
  split
  · next blank => rw [List.isEmpty_iff.1 blank]
  · exact hasGap_prepend (spaceless.isInk _) isTrimmed

/-- Without fences all lines are trimmed. -/
theorem trimmedLaw : LineLaw engine False fun line => IsTrimmed line.text where
  margin _ _ isTrimmed := isTrimmed
  fenced _ := False.elim
  quoted line isTrimmed := by
    rw [quote, text_flush]
    split
    · exact isTrimmed_of_ink isInk_quoteSign
    · next some =>
        exact isTrimmed_word isInk_quoteSign (List.cons_ne_nil _ _) (by simpa using some)
          (isTrimmed_shown spaceless isTrimmed)
  item kind depth number widest body text isTrimmed := by
    have marker := kind.isInk_of_mem_marker depth number
    cases body with
    | nil => exact List.forall_mem_singleton.2 (isTrimmed_of_ink marker)
    | cons first rest =>
        obtain ⟨firstTrimmed, restTrimmed⟩ := List.forall_mem_cons.1 isTrimmed
        have some : first.shown engine ≠ [] := by
          have isText := text first rfl
          rw [shown_of_text engine isText]
          exact List.append_ne_nil_of_right_ne_nil _ (List.isEmpty_eq_false_iff.1 isText)
        refine List.forall_mem_cons.2 ⟨isTrimmed_word marker (kind.marker_ne_nil depth number) some
          (isTrimmed_shown spaceless firstTrimmed), ?_⟩
        rw [List.forall_mem_map]
        intro line member
        split
        · exact isTrimmed_nil
        · exact restTrimmed line member

theorem isTrimmed_lines (depth : Nat) {nodes : List Markup} (apart : Markup.AreApart nodes) :
    ∀ line ∈ (Markup.lines depth nodes).answer engine, IsTrimmed line.text :=
  (trimmedLaw spaceless).lines depth (.inr apart)

/-- A quote has the gaps of what it quotes. -/
theorem haveGap_quoted {lines : List (Line W)} (isTrimmed : ∀ line ∈ lines, IsTrimmed line.text) :
    HaveGap (quoted (lines.map (shown engine)) : List (Line W)) ↔ HaveGap lines := by
  rw [quoted_eq_map, List.map_map]
  refine haveGap_map fun line member => ?_
  have shownTrimmed := isTrimmed_shown spaceless (isTrimmed line member)
  rw [← hasGap_shown spaceless (isTrimmed line member), Function.comp_apply, quote, text_flush]
  split
  · next none =>
      rw [List.isEmpty_iff.1 none]
      exact iff_of_false (not_hasGap_of_ink isInk_quoteSign) not_hasGap_nil
  · exact hasGap_word isInk_quoteSign shownTrimmed

/-- An item has the gaps of its content. -/
theorem haveGap_item {marker : List Char} (ink : ∀ character ∈ marker, isInk character = true)
    (widest : W) {body : List (Line W)} (isTrimmed : ∀ line ∈ body, IsTrimmed line.text) :
    HaveGap (ListItem.lines engine widest marker body) ↔ HaveGap body := by
  cases body with
  | nil => simp [ListItem.lines, HaveGap, not_hasGap_of_ink ink]
  | cons first rest =>
      obtain ⟨firstTrimmed, -⟩ := List.forall_mem_cons.1 isTrimmed
      rw [ListItem.lines, haveGap_cons, haveGap_cons,
        hasGap_word ink (isTrimmed_shown spaceless firstTrimmed),
        hasGap_shown spaceless firstTrimmed]
      refine or_congr_right (haveGap_map fun line _ => ?_)
      split
      · next blank => rw [List.isEmpty_iff.1 blank, text_flush]
      · rfl

end Spaceless

end Line

section Pieces

variable {W : Type} [Width W] {engine : Engine W}

/-- Whether a piece has the gaps of a text: a run has them wherever it stands, and a paragraph or a
block in lines of its own. -/
def Piece.HasGapsOf (plain : List Char) : Piece W → Prop
  | .run text => SameGaps text plain
  | .paragraph text => IsFramed plain ∧ (HasGap text ↔ HasGap plain)
  | .block lines => IsFramed plain ∧ (Line.HaveGap lines ↔ HasGap plain)

/-- Pieces have the gaps of the texts that they stand for, put together. -/
theorem Piece.haveGap_nonBlank {nodes : List Markup} {pieces : List (Piece W)}
    (fits : List.Forall₂ (fun node piece => HasGapsOf node.plain piece) nodes pieces)
    {pending plain : List Char} (same : SameGaps pending plain) :
    Line.HaveGap (nonBlank pending pieces) ↔ HasGap (plain ++ Markup.plainAll nodes) := by
  induction fits generalizing pending plain with
  | nil =>
      rw [Markup.plainAll, List.append_nil, nonBlank, Line.haveGap_nonBlank, Line.haveGap_ofRun,
        same.hasGap_iff]
  | @cons node piece nodes pieces fit _ ih =>
      have following : Line.HaveGap (nonBlank [] pieces) ↔ HasGap (Markup.plainAll nodes) :=
        ih (SameGaps.refl [])
      rw [Markup.plainAll, ← List.append_assoc]
      cases piece with
      | run text => exact ih (same.append fit)
      | paragraph text | block lines =>
          obtain ⟨framed, sameGap⟩ := fit
          rw [framed.hasGap_iff, ← sameGap, ← same.hasGap_iff, ← following]
          simp only [nonBlank, Line.haveGap_append, Line.haveGap_nonBlank, Line.haveGap_ofRun,
            or_assoc]

theorem Markup.haveGap_lines {depth : Nat} {nodes : List Markup}
    (fits : List.Forall₂ (fun node piece => Piece.HasGapsOf node.plain piece) nodes
      ((pieces depth nodes).answer engine)) :
    Line.HaveGap ((lines depth nodes).answer engine) ↔ HasGap (plainAll nodes) := by
  rw [lines_answer, ← Line.haveGap_nonBlank, Piece.nonBlank_lines,
    Piece.haveGap_nonBlank fits (SameGaps.refl []), List.nil_append]

theorem Markup.isFramed_plain {node : Markup} (isBlock : node.isBlock = true) :
    IsFramed node.plain := by
  cases node with
  | paragraph children | blockquote children | preformatted children =>
      exact ⟨rfl, List.getLast?_concat⟩
  | list kind items =>
      refine ⟨?_, List.getLast?_concat⟩
      cases items with
      | nil => rfl
      | cons item rest =>
          obtain ⟨number, children⟩ := item
          rfl
  | _ => cases isBlock

theorem ListItem.opens_plainAll (items : List ListItem) :
    ∀ character ∈ (ListItem.plainAll items).head?, character = '\n' := by
  cases items with
  | nil => nofun
  | cons item rest =>
      obtain ⟨number, children⟩ := item
      exact fun character isFirst => (Option.some.inj isFirst).symm

/-- The items of a list have the gaps of their contents. -/
theorem Line.haveGap_itemLines (spaceless : engine.Spaceless) (widest : W)
    {content : ListItem → List (Line W)} {items : List ListItem} {markers : List (List Char)}
    (ink : ∀ marker ∈ markers, ∀ character ∈ marker, isInk character = true)
    (count : markers.length = items.length)
    (isTrimmed : ∀ item ∈ items, ∀ line ∈ content item, IsTrimmed line.text) :
    HaveGap (List.zipWith (fun marker item => ListItem.lines engine widest marker (content item))
      markers items).flatten ↔ ∃ item ∈ items, HaveGap (content item) := by
  induction items generalizing markers with
  | nil => simp [HaveGap]
  | cons item rest ih =>
      obtain ⟨marker, markers, rfl⟩ := List.exists_cons_of_length_eq_add_one count
      obtain ⟨inkFirst, inkRest⟩ := List.forall_mem_cons.1 ink
      obtain ⟨trimmed, restTrimmed⟩ := List.forall_mem_cons.1 isTrimmed
      rw [List.zipWith_cons_cons, List.flatten_cons, haveGap_append,
        haveGap_item spaceless inkFirst widest trimmed, ih inkRest (Nat.succ.inj count) restTrimmed]
      simp only [List.mem_cons, exists_eq_or_imp]

theorem Markup.hasGapsOf_run (spaceless : engine.Spaceless) (depth : Nat) {node : Markup}
    (isInline : node.IsInline) (apart : node.IsApart) :
    Piece.HasGapsOf node.plain ((piece depth node).answer engine) := by
  have fits := (gapLaw spaceless).fits_piece depth node isInline.isFormed
  obtain ⟨text, same⟩ := RenderLaw.piece_of_isInline engine depth isInline
  rw [same] at fits ⊢
  have sameGaps := (fits (areApart_singleton.2 apart)).1
  rwa [plainAll_singleton] at sameGaps

mutual

theorem Markup.hasGapsOf_piece (spaceless : engine.Spaceless) (depth : Nat) :
    ∀ node : Markup, node.IsFormed → node.IsApart →
      Piece.HasGapsOf node.plain ((Markup.piece depth node).answer engine)
  | .text _, formed, apart | .lineBreak, formed, apart | .code _, formed, apart
  | .bold _, formed, apart | .italic _, formed, apart | .strike _, formed, apart =>
      Markup.hasGapsOf_run spaceless depth formed apart
  | .paragraph children, formed, apart => by
      have run := ((Markup.gapLaw spaceless).fits_run children formed apart).1
      rw [Markup.piece, Query.answer_map]
      exact ⟨Markup.isFramed_plain rfl, run.hasGap_iff.trans (hasGap_frame _).symm⟩
  | .blockquote children, formed, apart => by
      simp only [Markup.piece, Query.answer_bind, Query.answer_pure, Line.renderAll_answer,
        ← Markup.lines_answer]
      refine ⟨Markup.isFramed_plain rfl, ?_⟩
      rw [Line.haveGap_quoted spaceless (Line.isTrimmed_lines spaceless depth apart),
        Markup.haveGap_lines (Markup.hasGapsOf_pieces spaceless depth children formed apart),
        Markup.plain, hasGap_frame]
  | .list kind items, formed, apart => by
      rw [Markup.piece_list_answer]
      refine ⟨Markup.isFramed_plain rfl, ?_⟩
      rw [Markup.plain, hasGap_concat_lineFeed,
        ← ListItem.haveGap_items spaceless (depth + 1) items formed apart]
      have ink : ∀ marker ∈ kind.markers depth items, ∀ character ∈ marker,
          isInk character = true := by
        rw [ListKind.markers, List.forall_mem_map]
        exact fun number _ => kind.isInk_of_mem_marker depth number
      exact Line.haveGap_itemLines spaceless _ ink (kind.length_markers depth items)
        fun item member => Line.isTrimmed_lines spaceless (depth + 1)
          (ListItem.areApart_iff.1 apart item member)

theorem Markup.hasGapsOf_pieces (spaceless : engine.Spaceless) (depth : Nat) :
    ∀ nodes : List Markup, Markup.AreFormed nodes → Markup.AreApart nodes →
      List.Forall₂ (fun node piece => Piece.HasGapsOf node.plain piece) nodes
        ((Markup.pieces depth nodes).answer engine)
  | [], _, _ => .nil
  | node :: rest, ⟨formed, restFormed⟩, ⟨apart, restApart⟩ => by
      rw [Markup.pieces_answer_cons]
      exact .cons (Markup.hasGapsOf_piece spaceless depth node formed apart)
        (Markup.hasGapsOf_pieces spaceless depth rest restFormed restApart)

/-- The items of a list have the gaps of their plain text. -/
theorem ListItem.haveGap_items (spaceless : engine.Spaceless) (depth : Nat) :
    ∀ items : List ListItem, ListItem.AreFormed items → ListItem.AreApart items →
      ((∃ item ∈ items, Line.HaveGap ((Markup.lines depth item.children).answer engine)) ↔
        HasGap (ListItem.plainAll items))
  | [], _, _ => iff_of_false (by simp) (fun gap => nomatch gap)
  | ⟨number, children⟩ :: rest, ⟨formed, restFormed⟩, ⟨apart, restApart⟩ => by
      have own := Markup.haveGap_lines
        (Markup.hasGapsOf_pieces spaceless depth children formed apart)
      have following := ListItem.haveGap_items spaceless depth rest restFormed restApart
      have split : HasGap ('\n' :: Markup.plainAll children ++ ListItem.plainAll rest) ↔
          HasGap (Markup.plainAll children) ∨ HasGap (ListItem.plainAll rest) :=
        hasGap_append_opened _ (ListItem.opens_plainAll rest)
      simp only [List.mem_cons, exists_eq_or_imp]
      rw [ListItem.plainAll, split, own, following]

end

namespace Markup

variable {nodes : List Markup}

/-- Rendered text has the gaps of plain text. -/
theorem hasGap_render (spaceless : engine.Spaceless) (formed : AreFormed nodes)
    (apart : AreApart nodes) :
    HasGap ((render nodes).answer engine) ↔ HasGap (plainAll nodes) := by
  rw [← haveGap_lines (hasGapsOf_pieces spaceless 0 nodes formed apart), render_answer,
    hasGap_unlines]
  simp only [List.mem_map, exists_exists_and_eq_and, Line.HaveGap]
  exact exists_congr fun line => and_congr_right fun member =>
    Line.hasGap_shown spaceless (Line.isTrimmed_lines spaceless 0 apart line member)

theorem isTrimmed_of_mem_render (spaceless : engine.Spaceless) (apart : AreApart nodes) :
    ∀ row ∈ Text.lines ((render nodes).answer engine), IsTrimmed row := by
  have indents (width : W) : '\n' ∉ engine.indent width := fun member =>
    nomatch spaceless width '\n' member
  by_cases shown : (render nodes).answer engine = []
  · rw [shown]
    exact List.forall_mem_singleton.2 isTrimmed_nil
  · rw [(lines_render indents shown).2, List.forall_mem_map]
    exact fun line member =>
      Line.isTrimmed_shown spaceless (Line.isTrimmed_lines spaceless 0 apart line member)

/-- Rendered text without tokens and fences has no spacing but spaces and line feeds. -/
theorem isCollapsed_render (spaceless : engine.Spaceless) (formed : AreFormed nodes)
    (apart : AreApart nodes) : IsCollapsed ((render nodes).answer engine) := by
  obtain ⟨lines, rows, same⟩ := (gapLaw spaceless).rows formed
  have collapsed := rows apart
  rw [List.forall_mem_map] at collapsed
  rw [same]
  refine IsCollapsed.unlines (List.forall_mem_map.2 fun line member => ?_)
  exact isCollapsed_shown spaceless (collapsed line member)

/-- Two spaces are next to each other in rendered text exactly if spacing goes on over leaves. -/
theorem adjacent_render (spaceless : engine.Spaceless) (formed : AreFormed nodes)
    (apart : AreApart nodes) : [' ', ' '] <:+: (render nodes).answer engine ↔
      ∃ before after, Leaf.GapBetween (allLeaves nodes) before after := by
  rw [adjacent_iff_hasGap (isTrimmed_of_mem_render spaceless apart),
    hasGap_render spaceless formed apart,
    ← write_allLeaves nodes (AreApart.areTokenless nodes apart), Leaf.hasGap_write]

/-- The same in plain text, where there has to be something visible on both sides. -/
theorem adjacent_plainText (apart : AreApart nodes) : [' ', ' '] <:+: plainText nodes ↔
    ∃ before after, Leaf.GapBetween (allLeaves nodes) before after ∧
      (∃ leaf ∈ before, leaf.Shows) ∧ ∃ leaf ∈ after, leaf.Shows := by
  rw [plainText, ← write_allLeaves nodes (AreApart.areTokenless nodes apart),
    Leaf.adjacent_tidy_write]

theorem isCollapsed_plainText (apart : AreApart nodes) : IsCollapsed (plainText nodes) :=
  (IsCollapsed.plainAll (AreApart.areTokenless nodes apart)).tidy

end Markup

end Pieces

end MessageBlocks
