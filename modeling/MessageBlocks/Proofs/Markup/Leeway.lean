import MessageBlocks.Proofs.Layout.Leeway
import MessageBlocks.Proofs.Markup.Arms

/-!
# Two layouts of markup

No step of the renderer looks at an indent: whether a line is blank, where a gap goes, what is
dropped at the ends of a page and how a quote starts is the same under all engines. So markup is
rendered alike whatever widths and indents are answered. Runs of text ask for none at all, and
lists alone ask for any but the margin.
-/

namespace MessageBlocks

variable {W : Type} [Width W] {leeway : Leeway}

/-- Lists are rendered only if widths may differ. -/
def Leeway.Admits (leeway : Leeway) (nodes : List Markup) : Prop :=
  leeway.widths ∨ ∀ kind items, ¬ Markup.Occurs nodes (.list kind items)

namespace Markup

theorem Occurs.mono {nodes others : List Markup} {node : Markup} (occurs : Occurs nodes node)
    (among : ∀ other ∈ nodes, Occurs others other) : Occurs others node := by
  induction occurs with
  | here member => exact among _ member
  | deeper _ member ih => exact ih.deeper member

end Markup

namespace Leeway.Admits

variable {node : Markup} {nodes rest others : List Markup}

theorem mono (admits : leeway.Admits nodes)
    (among : ∀ other ∈ others, Markup.Occurs nodes other) : leeway.Admits others :=
  admits.imp_right fun none kind items occurs => none kind items (occurs.mono among)

theorem head (admits : leeway.Admits (node :: rest)) : leeway.Admits [node] := by
  apply admits.mono
  rintro _ (_ | ⟨_, ⟨⟩⟩)
  exact .here List.mem_cons_self

theorem tail (admits : leeway.Admits (node :: rest)) : leeway.Admits rest :=
  admits.mono fun _ member => .here (List.mem_cons_of_mem _ member)

theorem children (admits : leeway.Admits [node]) : leeway.Admits node.children :=
  admits.mono fun _ member => .deeper (.here List.mem_cons_self) member

/-- A list is admitted only if widths may differ. -/
theorem list {kind : ListKind} {items : List ListItem}
    (admits : leeway.Admits [.list kind items]) : leeway.widths :=
  admits.resolve_right fun none => none kind items (.here List.mem_cons_self)

theorem item {kind : ListKind} {items : List ListItem} {item : ListItem}
    (admits : leeway.Admits [.list kind items]) (member : item ∈ items) :
    leeway.Admits item.children :=
  admits.children.mono fun _ inItem => .here (List.mem_flatMap.2 ⟨item, member, inItem⟩)

end Leeway.Admits

/-- Two lines whose texts and widths differ within the leeway. -/
structure Line.Alike (leeway : Leeway) (line other : Line W) : Prop where
  text : leeway.SameText line.text other.text
  indent : leeway.SameWidth line.indent other.indent

abbrev Line.AllAlike (leeway : Leeway) : List (Line W) → List (Line W) → Prop :=
  List.Forall₂ (Line.Alike leeway)

namespace Line

variable {line other : Line W} {lines others : List (Line W)} {text otherText : List Char}

theorem Alike.isBlank_eq (alike : Alike leeway line other) : line.isBlank = other.isBlank :=
  alike.text.isEmpty_eq

theorem alike_flush (same : leeway.SameText text otherText) :
    Alike leeway (flush text : Line W) (flush otherText) :=
  ⟨same, .inr ⟨rfl, rfl⟩⟩

theorem allAlike_flush (texts : List (List Char)) :
    AllAlike leeway (texts.map flush : List (Line W)) (texts.map flush) := by
  rw [AllAlike, List.forall₂_same]
  intro line member
  obtain ⟨text, -, rfl⟩ := List.mem_map.1 member
  exact alike_flush (.refl leeway text)

theorem allAlike_ofRun (text : List Char) :
    AllAlike leeway (ofRun text : List (Line W)) (ofRun text) := by
  rw [ofRun]
  split
  · exact .nil
  · have rows : AllAlike leeway (((Text.lines text).map Text.trimSpaces).map flush : List (Line W))
        (((Text.lines text).map Text.trimSpaces).map flush) := allAlike_flush _
    rwa [List.map_map] at rows

theorem allAlike_fenced (text : List Char) :
    AllAlike leeway (fenced text : List (Line W)) (fenced text) := by
  have fence : Alike leeway (Line.fence : Line W) Line.fence := alike_flush (.refl leeway _)
  exact List.rel_append (.cons fence (allAlike_flush _)) (.cons fence .nil)

theorem allAlike_quoted {texts otherTexts : List (List Char)}
    (same : List.Forall₂ leeway.SameText texts otherTexts) :
    AllAlike leeway (quoted texts : List (Line W)) (quoted otherTexts) := by
  rw [quoted, quoted, AllAlike, List.forall₂_map_left_iff, List.forall₂_map_right_iff]
  refine same.imp fun text otherText sameText => alike_flush ?_
  rw [sameText.isEmpty_eq]
  split
  · exact .refl leeway ['>']
  · exact sameText.append_left ['>', ' ']

theorem Alike.render (alike : Alike leeway line other) :
    Query.Alike leeway leeway.SameText line.render other.render := by
  rw [Line.render, Line.render, alike.isBlank_eq]
  split
  · exact .done (.refl leeway [])
  · next visible =>
      have shown : line.text ≠ [] := by
        rw [← alike.isBlank_eq, isBlank, List.isEmpty_iff] at visible
        exact visible
      refine (Query.Alike.indentOf alike.indent).bind ?_
      rintro indent otherIndent ⟨isIndent, otherIsIndent⟩
      exact .done (alike.text.indented shown isIndent otherIsIndent)

theorem AllAlike.renderAll (alike : AllAlike leeway lines others) :
    Query.Alike leeway (List.Forall₂ leeway.SameText) (renderAll lines) (renderAll others) := by
  induction alike with
  | nil => exact .done .nil
  | cons first _ ih =>
      refine first.render.bind fun text otherText same => ?_
      exact ih.bind fun texts otherTexts sameRest => .done (.cons same sameRest)

theorem AllAlike.dropBlank (alike : AllAlike leeway lines others) :
    AllAlike leeway (lines.dropWhile isBlank) (others.dropWhile isBlank) := by
  induction alike with
  | nil => exact .nil
  | cons first rest ih =>
      rw [List.dropWhile_cons, List.dropWhile_cons, first.isBlank_eq]
      split
      · exact ih
      · exact .cons first rest

end Line

/-- Two pages with alike lines, on both of which a gap is due or on neither. -/
structure Page.Alike (leeway : Leeway) (page other : Page W) : Prop where
  lines : Line.AllAlike leeway page.lines other.lines
  gap : page.gap = other.gap

namespace Page.Alike

variable {page other : Page W} {lines others : List (Line W)}

theorem empty : Alike leeway (Page.empty : Page W) Page.empty :=
  ⟨.nil, rfl⟩

theorem endsInText_eq (alike : Alike leeway page other) : page.endsInText = other.endsInText := by
  have reversed := List.rel_reverse alike.lines
  rw [endsInText, endsInText, List.getLast?_eq_head?_reverse, List.getLast?_eq_head?_reverse]
  generalize page.lines.reverse = fromEnd, other.lines.reverse = otherFromEnd at reversed
  cases reversed with
  | nil => rfl
  | cons last _ => simp [last.isBlank_eq]

theorem push (alike : Alike leeway page other) {line otherLine : Line W}
    (next : line.Alike leeway otherLine) :
    Alike leeway (page.push line) (other.push otherLine) := by
  refine ⟨?_, rfl⟩
  rw [Page.push, Page.push, alike.gap, alike.endsInText_eq]
  split
  · exact List.rel_append alike.lines
      (.cons (Line.alike_flush (.refl leeway [])) (.cons next .nil))
  · exact List.rel_append alike.lines (.cons next .nil)

theorem pushAll (alike : Alike leeway page other) (next : Line.AllAlike leeway lines others) :
    Alike leeway (page.pushAll lines) (other.pushAll others) := by
  induction next generalizing page other with
  | nil => exact alike
  | cons first _ ih => exact ih (alike.push first)

theorem requestGap (alike : Alike leeway page other) :
    Alike leeway page.requestGap other.requestGap := by
  refine ⟨alike.lines, ?_⟩
  have count := alike.lines.length_eq
  have sameOpen : page.lines.isEmpty = other.lines.isEmpty := by
    rw [Bool.eq_iff_iff, List.isEmpty_iff_length_eq_zero, List.isEmpty_iff_length_eq_zero, count]
  rw [Page.requestGap, Page.requestGap, alike.gap, sameOpen]

theorem finish (alike : Alike leeway page other) :
    Line.AllAlike leeway page.finish other.finish := by
  have fromEnd := Line.AllAlike.dropBlank (List.rel_reverse alike.lines)
  exact Line.AllAlike.dropBlank (List.rel_reverse fromEnd)

end Page.Alike

/-- Two pieces of a page: runs and paragraphs are the same, and blocks have alike lines. -/
inductive Piece.Alike (leeway : Leeway) : Piece W → Piece W → Prop where
  | run (text : List Char) : Alike leeway (.run text) (.run text)
  | paragraph (text : List Char) : Alike leeway (.paragraph text) (.paragraph text)
  | block {lines others : List (Line W)} (alike : Line.AllAlike leeway lines others) :
      Alike leeway (.block lines) (.block others)

namespace Piece

variable {pieces others : List (Piece W)}

theorem alike_place {page other : Page W} (pending : List Char)
    (alike : List.Forall₂ (Alike leeway) pieces others) (placed : page.Alike leeway other) :
    (place page pending pieces).Alike leeway (place other pending others) := by
  induction alike generalizing page other pending with
  | nil => exact placed.pushAll (Line.allAlike_ofRun pending)
  | cons first _ ih =>
      have flushed := placed.pushAll (Line.allAlike_ofRun pending)
      cases first with
      | run text => exact ih (pending ++ text) placed
      | paragraph text =>
          exact ih [] (flushed.requestGap.pushAll (Line.allAlike_ofRun text)).requestGap
      | block lines => exact ih [] (flushed.pushAll lines)

theorem alike_lines (alike : List.Forall₂ (Alike leeway) pieces others) :
    Line.AllAlike leeway (lines pieces) (lines others) :=
  (alike_place [] alike .empty).finish

end Piece

/-- Two contents of a list item with alike lines. -/
structure ItemBody.Alike (leeway : Leeway) (body other : ItemBody W) : Prop where
  first : Option.Rel leeway.SameText body.first other.first
  others : Line.AllAlike leeway body.others other.others

namespace ItemBody

variable {body other : ItemBody W}

theorem alike_ofLines {lines others : List (Line W)} (alike : Line.AllAlike leeway lines others) :
    Query.Alike leeway (Alike leeway) (ofLines lines) (ofLines others) := by
  cases alike with
  | nil => exact .done ⟨.none, .nil⟩
  | cons first rest =>
      exact first.render.bind fun text otherText same => .done ⟨.some same, rest⟩

/-- The lines of an item are alike even if they are padded and indented differently. -/
theorem Alike.lines (alike : Alike leeway body other) (free : leeway.widths) (marker : List Char)
    (padding otherPadding content otherContent : W) :
    Line.AllAlike leeway (body.lines marker padding content)
      (other.lines marker otherPadding otherContent) := by
  rw [ItemBody.lines, ItemBody.lines]
  obtain ⟨first, others⟩ := body
  obtain ⟨otherFirst, otherOthers⟩ := other
  obtain ⟨sameFirst, sameOthers⟩ := alike
  refine .cons ?_ ?_
  · cases sameFirst with
    | none => exact ⟨.refl leeway marker, .inl free⟩
    | some same =>
        have marked := (same.append_left [' ']).append_left marker
        exact ⟨marked, .inl free⟩
  · rw [List.forall₂_map_left_iff, List.forall₂_map_right_iff]
    refine sameOthers.imp fun line otherLine same => ?_
    rw [same.isBlank_eq]
    split
    · exact Line.alike_flush same.text
    · exact ⟨same.text, .inl free⟩

end ItemBody

theorem ListKind.alike_lines (free : leeway.widths) (widest otherWidest space otherSpace : W)
    {bodies otherBodies : List (ItemBody W)}
    (alike : List.Forall₂ (ItemBody.Alike leeway) bodies otherBodies) (markers : List (List Char))
    (widths otherWidths : List W) (count : widths.length = otherWidths.length) :
    Line.AllAlike leeway (ListKind.lines widest space markers widths bodies)
      (ListKind.lines otherWidest otherSpace markers otherWidths otherBodies) := by
  induction alike generalizing markers widths otherWidths with
  | nil => cases markers <;> cases widths <;> cases otherWidths <;> exact .nil
  | cons first _ ih =>
      cases markers with
      | nil => exact .nil
      | cons marker markers =>
          cases widths with
          | nil =>
              rw [List.length_eq_zero_iff.1 count.symm]
              exact .nil
          | cons width widths =>
              obtain ⟨otherWidth, otherWidths, rfl⟩ :=
                List.exists_cons_of_length_eq_add_one count.symm
              have following := ih markers widths otherWidths (Nat.succ.inj count)
              exact List.rel_append (first.lines free marker _ _ _ _) following

theorem alike_measureAll (free : leeway.widths) (texts : List (List Char)) :
    Query.Alike leeway (fun widths otherWidths => widths.length = otherWidths.length)
      (measureAll texts : Query W (List W)) (measureAll texts) := by
  induction texts with
  | nil => exact .done rfl
  | cons text rest ih =>
      refine (Query.Alike.width free text).bind fun width otherWidth _ => ?_
      exact ih.bind fun widths otherWidths count => .done (congrArg Nat.succ count)

namespace Markup

section Runs

/-! What stands within a line asks the engine for nothing. -/

mutual

theorem piece_eq_pure (depth : Nat) : ∀ node : Markup, node.IsInline →
    ∃ text, (piece depth node : Query W (Piece W)) = pure (.run text)
  | .text _, _ | .lineBreak, _ | .code _, _ | .time _ _ _, _ => ⟨_, by rw [piece]⟩
  | .bold children, areInline | .italic children, areInline | .strike children, areInline
  | .link _ children, areInline => by
      obtain ⟨text, same⟩ := run_eq_pure children areInline
      exact ⟨_, by rw [piece, same, map_pure]⟩

/-- A run of nodes that stand within a line has one text under all engines. -/
theorem run_eq_pure : ∀ nodes : List Markup, AreInline nodes →
    ∃ text, (run nodes : Query W (List Char)) = pure text
  | [], _ => ⟨[], rfl⟩
  | node :: rest, ⟨isInline, restInline⟩ => by
      obtain ⟨text, same⟩ := piece_eq_pure 0 node isInline
      obtain ⟨following, sameRest⟩ := run_eq_pure rest restInline
      exact ⟨text ++ following, by rw [run, same, sameRest]; rfl⟩

end

theorem verbatim_eq_pure (nodes : List Markup) (areVerbatim : ∀ node ∈ nodes, node.IsVerbatim) :
    ∃ text, (verbatim nodes : Query W (List Char)) = pure text := by
  induction nodes with
  | nil => exact ⟨[], rfl⟩
  | cons node rest ih =>
      obtain ⟨isVerbatim, others⟩ := List.forall_mem_cons.1 areVerbatim
      obtain ⟨following, sameRest⟩ := ih others
      cases node with
      | text content => exact ⟨_, by rw [verbatim, sameRest]; rfl⟩
      | lineBreak =>
          refine ⟨'\n' :: following, ?_⟩
          rw [verbatim, sameRest]
          · rfl
          all_goals simp
      | link target children =>
          obtain ⟨label, same⟩ := run_eq_pure (W := W) children isVerbatim
          exact ⟨_, by rw [verbatim, same, sameRest]; rfl⟩
      | _ => cases isVerbatim

end Runs

mutual

theorem alike_piece (depth : Nat) : ∀ node : Markup, node.IsFormed → leeway.Admits [node] →
    Query.Alike leeway (Piece.Alike leeway) (piece depth node : Query W (Piece W))
      (piece depth node)
  | .paragraph children, areInline, _ => by
      obtain ⟨text, same⟩ := run_eq_pure (W := W) children areInline
      rw [piece, same, map_pure]
      exact .done (.paragraph text)
  | .blockquote children, areFormed, admits => by
      rw [piece]
      refine (alike_pieces depth children areFormed admits.children).bind ?_
      intro pieces otherPieces same
      refine (Line.AllAlike.renderAll (Piece.alike_lines same)).bind ?_
      intro texts otherTexts sameTexts
      exact .done (.block (Line.allAlike_quoted sameTexts))
  | .preformatted children, areVerbatim, _ => by
      obtain ⟨text, same⟩ := verbatim_eq_pure (W := W) children areVerbatim
      rw [piece, same, map_pure]
      exact .done (.block (Line.allAlike_fenced text))
  | .list kind items, areFormed, admits => by
      rw [piece]
      refine (alike_measureAll admits.list _).bind fun widths otherWidths count => ?_
      refine (Query.Alike.width admits.list [' ']).bind fun space otherSpace _ => ?_
      refine (alike_bodies (depth + 1) items areFormed fun item => admits.item).bind ?_
      intro bodies otherBodies same
      exact .done (.block (ListKind.alike_lines admits.list _ _ _ _ same _ _ _ count))
  | .text _, isInline, _ | .bold _, isInline, _ | .italic _, isInline, _
  | .strike _, isInline, _ | .code _, isInline, _ | .link _ _, isInline, _
  | .time _ _ _, isInline, _ | .lineBreak, isInline, _ => by
      obtain ⟨text, same⟩ := piece_eq_pure (W := W) depth _ isInline
      rw [same]
      exact .done (.run text)

theorem alike_pieces (depth : Nat) : ∀ nodes : List Markup, AreFormed nodes →
    leeway.Admits nodes → Query.Alike leeway (List.Forall₂ (Piece.Alike leeway))
      (pieces depth nodes : Query W (List (Piece W))) (pieces depth nodes)
  | [], _, _ => .done .nil
  | node :: rest, ⟨isFormed, restFormed⟩, admits => by
      rw [pieces]
      refine (alike_piece depth node isFormed admits.head).bind fun piece otherPiece same => ?_
      refine (alike_pieces depth rest restFormed admits.tail).bind ?_
      intro pieces otherPieces sameRest
      exact .done (.cons same sameRest)

theorem alike_bodies (depth : Nat) : ∀ items : List ListItem, ListItem.AreFormed items →
    (∀ item ∈ items, leeway.Admits item.children) →
    Query.Alike leeway (List.Forall₂ (ItemBody.Alike leeway))
      (ListItem.bodies depth items : Query W (List (ItemBody W))) (ListItem.bodies depth items)
  | [], _, _ => .done .nil
  | ⟨number, children⟩ :: rest, ⟨areFormed, restFormed⟩, admits => by
      obtain ⟨first, others⟩ := List.forall_mem_cons.1 admits
      rw [ListItem.bodies]
      refine (alike_pieces depth children areFormed first).bind fun pieces otherPieces same => ?_
      refine (ItemBody.alike_ofLines (Piece.alike_lines same)).bind ?_
      intro body otherBody sameBody
      refine (alike_bodies depth rest restFormed others).bind fun bodies otherBodies sameRest => ?_
      exact .done (.cons sameBody sameRest)

end

/-- Markup that obeys the content model is rendered alike. -/
theorem alike_render {nodes : List Markup} (areFormed : AreFormed nodes)
    (admits : leeway.Admits nodes) :
    Query.Alike leeway leeway.SameText (render nodes : Query W (List Char)) (render nodes) := by
  have sameLines : Query.Alike leeway (Line.AllAlike leeway) (lines 0 nodes : Query W _)
      (lines 0 nodes) :=
    (alike_pieces 0 nodes areFormed admits).map fun pieces otherPieces => Piece.alike_lines
  refine sameLines.bind fun lines otherLines same => ?_
  exact (Line.AllAlike.renderAll same).bind fun texts otherTexts sameTexts =>
    .done (.unlines sameTexts)

end Markup

end MessageBlocks
