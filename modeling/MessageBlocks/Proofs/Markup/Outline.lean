import MessageBlocks.Proofs.Markup.Alignment
import MessageBlocks.Proofs.Markup.Levels

/-!
# Outlines of lists

In an outline the lines of nested lists stand with the margins that the lists around them add, from
the outermost on. The first line of an item has none, since it is padded by itself and holds the
first line of its content behind the marker. All other lines are indented by the sum of their
margins. The renderer carries this sum along and asks for the indent once, in the end: the texts of
an outline are those of an engine that has no glyphs for indents at all.
-/

namespace MessageBlocks

/-- The lines of a list with text in them. -/
def Line.nonBlank {W : Type} (lines : List (Line W)) : List (Line W) :=
  lines.filter (!·.isBlank)

section Pages

variable {W : Type} [Width W]

open Line

omit [Width W] in
theorem Line.nonBlank_append (first second : List (Line W)) :
    nonBlank (first ++ second) = nonBlank first ++ nonBlank second :=
  List.filter_append ..

omit [Width W] in
theorem Line.nonBlank_dropWhile (lines : List (Line W)) :
    nonBlank (lines.dropWhile isBlank) = nonBlank lines := by
  induction lines with
  | nil => rfl
  | cons line rest ih =>
      rw [List.dropWhile_cons]
      split
      · next blank => simpa [nonBlank, blank] using ih
      · rfl

omit [Width W] in
theorem Page.nonBlank_finish (page : Page W) : nonBlank page.finish = nonBlank page.lines := by
  rw [finish, nonBlank_dropWhile, nonBlank, List.filter_reverse]
  exact (congrArg _ (nonBlank_dropWhile _)).trans (by simp [nonBlank, List.filter_reverse])

theorem Page.nonBlank_pushAll (page : Page W) (lines : List (Line W)) :
    nonBlank (page.pushAll lines).lines = nonBlank page.lines ++ nonBlank lines := by
  rcases page.pushAll_lines lines with same | same <;> rw [same]
  · exact nonBlank_append ..
  · have gap : nonBlank [(Line.flush [] : Line W)] = [] := rfl
    rw [nonBlank_append, nonBlank_append, gap, List.append_nil]

/-- The lines with text that pieces make, behind a run that is pending. -/
def Piece.nonBlank (pending : List Char) : List (Piece W) → List (Line W)
  | [] => Line.nonBlank (Line.ofRun pending)
  | .run text :: rest => nonBlank (pending ++ text) rest
  | .paragraph text :: rest =>
      Line.nonBlank (Line.ofRun pending) ++ Line.nonBlank (Line.ofRun text) ++ nonBlank [] rest
  | .block lines :: rest =>
      Line.nonBlank (Line.ofRun pending) ++ Line.nonBlank lines ++ nonBlank [] rest

theorem Piece.nonBlank_place (page : Page W) (pending : List Char) (pieces : List (Piece W)) :
    Line.nonBlank (place page pending pieces).lines =
      Line.nonBlank page.lines ++ nonBlank pending pieces := by
  induction pieces generalizing page pending with
  | nil => exact page.nonBlank_pushAll _
  | cons piece rest ih =>
      cases piece with
      | run text => exact ih page _
      | paragraph text =>
          rw [place, ih]
          simp only [Page.requestGap, Page.nonBlank_pushAll, nonBlank, List.append_assoc]
      | block lines =>
          rw [place, ih]
          simp only [Page.nonBlank_pushAll, nonBlank, List.append_assoc]

theorem Piece.nonBlank_lines (pieces : List (Piece W)) :
    Line.nonBlank (lines pieces) = nonBlank [] pieces := by
  rw [lines, Page.nonBlank_finish, nonBlank_place]
  rfl

/-- The first line of a page that is finished has text. -/
theorem Piece.isBlank_first {pieces : List (Piece W)} {first : Line W} {rest : List (Line W)}
    (same : lines pieces = first :: rest) : first.isBlank = false := by
  have opens := List.head?_dropWhile_not isBlank
    ((place Page.empty [] pieces).lines.reverse.dropWhile isBlank).reverse
  rw [lines, Page.finish] at same
  rwa [same] at opens

end Pages

/-- A line of an outline: one that starts an item, or one inside of lists that add margins. -/
inductive OutlineLine where
  | start
  | inside (margins : List ℚ) (text : List Char)
  deriving DecidableEq

/-- An engine that has no glyphs to make indents of. -/
def Engine.bare : Engine ℚ :=
  ⟨⟨[], []⟩, 0⟩

namespace OutlineLine

/-- The lines with text in a run outside of all lists. -/
def ofRun (text : List Char) : List OutlineLine :=
  (Line.nonBlank (Line.ofRun text : List (Line ℚ))).map fun line => .inside [] line.text

/-- A line in a list that adds a margin to those further inside. -/
def within (margin : ℚ) : OutlineLine → OutlineLine
  | .start => .start
  | .inside margins text => .inside (margin :: margins) text

end OutlineLine

/-- The text of nodes that hold no lists. -/
def Markup.bareText (nodes : List Markup) : List Char :=
  (Markup.run nodes).answer Engine.bare

mutual

/-- The outline of a paragraph or a list. -/
def Markup.outline (engine : Engine ℚ) (depth : Nat) : Markup → List OutlineLine
  | .paragraph children => OutlineLine.ofRun (Markup.bareText children)
  | .list kind items =>
      ListItem.outline engine (depth + 1)
        (kind.widest engine depth items + engine.measure [' ']) items
  | _ => []

/-- The outline of nodes that are inline, paragraphs or lists, behind a run that is pending. -/
def Markup.outlineAll (engine : Engine ℚ) (depth : Nat) (pending : List Char) :
    List Markup → List OutlineLine
  | [] => OutlineLine.ofRun pending
  | node :: rest =>
      if node.isBlock then
        OutlineLine.ofRun pending ++ Markup.outline engine depth node ++
          Markup.outlineAll engine depth [] rest
      else Markup.outlineAll engine depth (pending ++ Markup.bareText [node]) rest

/-- The outline of the items of a list that adds a margin. The first line of an item stands for the
first line of its content. -/
def ListItem.outline (engine : Engine ℚ) (depth : Nat) (margin : ℚ) :
    List ListItem → List OutlineLine
  | [] => []
  | ⟨_, children⟩ :: rest =>
      .start :: ((Markup.outlineAll engine depth [] children).drop 1).map (.within margin) ++
        ListItem.outline engine depth margin rest

end

/-- The line that an outline tells of. Its indent is the sum of the margins, and it is shown with
the glyphs of this sum in front of its text. -/
inductive OutlineLine.Fits (engine : Engine ℚ) : OutlineLine → Line ℚ → Prop where
  | start (line : Line ℚ) : Fits engine .start line
  | inside {margins : List ℚ} {text : List Char} {line : Line ℚ}
      (indent : line.indent = margins.sum) (sameText : line.text = text)
      (shown : line.shown engine = engine.indent margins.sum ++ text) :
      Fits engine (.inside margins text) line

mutual

/-- Inline nodes, paragraphs and lists. As the grammar has it, only lists have lists below them. -/
def Markup.IsListContent : Markup → Prop
  | .list _ items => ListItem.AreListContent items
  | .blockquote _ | .preformatted _ => False
  | node => node.listLevels = 0

def Markup.AreListContent : List Markup → Prop
  | [] => True
  | node :: rest => Markup.IsListContent node ∧ Markup.AreListContent rest

def ListItem.AreListContent : List ListItem → Prop
  | [] => True
  | ⟨_, children⟩ :: rest => Markup.AreListContent children ∧ ListItem.AreListContent rest

end

/-- Content that is no block has no list below it. -/
theorem Markup.IsListContent.listLevels {node : Markup} (content : node.IsListContent)
    (notBlock : node.isBlock = false) : node.listLevels = 0 := by
  cases node with
  | paragraph | blockquote | preformatted | list => cases notBlock
  | _ => exact content

section Fits

variable {engine : Engine ℚ}

open OutlineLine

theorem OutlineLine.forall₂_ofRun (text : List Char) :
    List.Forall₂ (Fits engine) (ofRun text) (Line.nonBlank (Line.ofRun text)) := by
  rw [ofRun, List.forall₂_map_left_iff, List.forall₂_same]
  intro line member
  obtain ⟨inRun, notBlank⟩ := List.mem_filter.1 member
  have margin : line.indent = 0 := Line.indent_of_mem_ofRun inRun
  refine .inside margin rfl ?_
  rw [Line.shown_of_text engine (by simpa using notBlank), margin]
  rfl

/-- A line fits its outline again further inside. -/
theorem OutlineLine.Fits.within {outline : OutlineLine} {line : Line ℚ}
    (fits : Fits engine outline line) (margin : ℚ) (notBlank : line.isBlank = false) :
    Fits engine (outline.within margin) ⟨margin + line.indent, line.text⟩ := by
  cases fits with
  | start => exact .start _
  | @inside margins text _ indent sameText shown =>
      have sum : margin + line.indent = (margin :: margins).sum := by
        rw [indent, List.sum_cons]
      refine .inside sum sameText ?_
      rw [← sum, ← sameText]
      exact Line.shown_of_text engine notBlank

theorem Line.nonBlank_cons {W : Type} (line : Line W) (rest : List (Line W)) :
    nonBlank (line :: rest) = if line.isBlank then nonBlank rest else line :: nonBlank rest := by
  cases blank : line.isBlank <;> simp [nonBlank, blank]

/-- The lines after the first one of an item fit an outline with the margin of the list. -/
theorem OutlineLine.forall₂_within (margin : ℚ) {outline : List OutlineLine}
    {rest : List (Line ℚ)} (fits : List.Forall₂ (Fits engine) outline (Line.nonBlank rest)) :
    List.Forall₂ (Fits engine) (outline.map (.within margin))
      (Line.nonBlank (rest.map fun line =>
        if line.isBlank then Line.flush [] else ⟨margin + line.indent, line.text⟩)) := by
  induction rest generalizing outline with
  | nil =>
      cases fits
      exact .nil
  | cons line rest ih =>
      rw [Line.nonBlank_cons] at fits
      rw [List.map_cons, Line.nonBlank_cons]
      cases blank : line.isBlank with
      | true =>
          rw [blank, if_pos rfl] at fits
          exact ih fits
      | false =>
          have stays : (⟨margin + line.indent, line.text⟩ : Line ℚ).isBlank = false := blank
          simp only [blank, Bool.false_eq_true, if_false] at fits
          simp only [Bool.false_eq_true, if_false, stays]
          cases fits with
          | cons first others => exact .cons (first.within margin blank) (ih others)

theorem ListKind.marker_ne_nil (kind : ListKind) (depth : Nat) (number : Int64) :
    kind.marker depth number ≠ [] := by
  cases kind with
  | unordered => exact List.cons_ne_nil _ _
  | ordered numbering start => exact List.append_ne_nil_of_right_ne_nil _ (List.cons_ne_nil _ _)

/-- The lines of an item fit its outline if those of its content do. -/
theorem ListItem.forall₂_lines {widest : ℚ} {marker : List Char} (shown : marker ≠ [])
    {outline : List OutlineLine} {body : List (Line ℚ)}
    (opens : ∀ first rest, body = first :: rest → first.isBlank = false)
    (fits : List.Forall₂ (Fits engine) outline (Line.nonBlank body)) :
    List.Forall₂ (Fits engine)
      (.start :: (outline.drop 1).map (.within (widest + engine.measure [' '])))
      (Line.nonBlank (ListItem.lines engine widest marker body)) := by
  cases body with
  | nil =>
      cases fits
      have starts : (⟨widest - engine.measure marker, marker⟩ : Line ℚ).isBlank = false := by
        simp [Line.isBlank, shown]
      rw [ListItem.lines, Line.nonBlank_cons, starts]
      exact .cons (.start _) .nil
  | cons first rest =>
      rw [Line.nonBlank_cons, opens first rest rfl] at fits
      have starts : (⟨widest - engine.measure marker, marker ++ ' ' :: first.shown engine⟩ :
          Line ℚ).isBlank = false := by
        simp [Line.isBlank]
      rw [ListItem.lines, Line.nonBlank_cons, starts]
      cases fits with
      | cons _ others => exact .cons (.start _) (OutlineLine.forall₂_within _ others)

theorem Markup.pieces_answer_cons {W : Type} [Width W] (engine : Engine W) (depth : Nat)
    (node : Markup) (rest : List Markup) :
    (Markup.pieces depth (node :: rest)).answer engine =
      (Markup.piece depth node).answer engine :: (Markup.pieces depth rest).answer engine := by
  simp only [Markup.pieces, Query.answer_bind, Query.answer_pure]

/-- A node within a line contributes the text that it has as a run of its own. -/
theorem Markup.piece_of_notBlock (depth : Nat) {node : Markup} (notBlock : node.isBlock = false)
    (listless : node.listLevels = 0) :
    (Markup.piece depth node).answer engine = .run (Markup.bareText [node]) := by
  have alone {text : List Char}
      (same : (Markup.piece 0 node).answer Engine.bare = .run text) :
      Markup.bareText [node] = text := by
    simp only [Markup.bareText, Markup.run, Query.answer_bind, same, Query.answer_pure,
      List.append_nil]
    rfl
  cases node with
  | paragraph | blockquote | preformatted | list => cases notBlock
  | text | code | time | lineBreak =>
      rw [alone rfl]
      rfl
  | bold children | italic children | strike children | link _ children =>
      have sameRun := Markup.run_of_listless engine Engine.bare children listless
      rw [alone (by rw [Markup.piece, Query.answer_map]), Markup.piece, Query.answer_map, sameRun]

mutual

theorem Markup.forall₂_outline (depth : Nat) (pending : List Char) (following : List (Piece ℚ)) :
    ∀ node : Markup, node.IsListContent → node.isBlock = true →
      ∃ lines, List.Forall₂ (Fits engine) (Markup.outline engine depth node) lines ∧
        Piece.nonBlank pending ((Markup.piece depth node).answer engine :: following) =
          Line.nonBlank (Line.ofRun pending) ++ lines ++ Piece.nonBlank [] following
  | .paragraph children, listless, _ => by
      have sameRun := Markup.run_of_listless engine Engine.bare children listless
      refine ⟨_, OutlineLine.forall₂_ofRun _, ?_⟩
      rw [Markup.piece, Query.answer_map, sameRun]
      rfl
  | .list kind items, content, _ => by
      have markers : ∀ marker ∈ kind.markers depth items, marker ≠ [] := by
        intro marker member
        obtain ⟨number, -, rfl⟩ := List.mem_map.1 member
        exact kind.marker_ne_nil depth number
      refine ⟨_, ListItem.forall₂_outline (depth + 1) (kind.widest engine depth items) items
        content (kind.markers depth items) markers (kind.length_markers depth items), ?_⟩
      rw [Markup.piece_list_answer]
      rfl
  | .blockquote _, content, _ | .preformatted _, content, _ => nomatch content

theorem Markup.forall₂_outlineAll (depth : Nat) (pending : List Char) : ∀ nodes : List Markup,
    Markup.AreListContent nodes →
    List.Forall₂ (Fits engine) (Markup.outlineAll engine depth pending nodes)
      (Piece.nonBlank pending ((Markup.pieces depth nodes).answer engine))
  | [], _ => OutlineLine.forall₂_ofRun pending
  | node :: rest, ⟨content, restContent⟩ => by
      rw [Markup.pieces_answer_cons, Markup.outlineAll]
      cases block : node.isBlock with
      | true =>
          obtain ⟨lines, fits, same⟩ := Markup.forall₂_outline depth pending
            ((Markup.pieces depth rest).answer engine) node content block
          have following := Markup.forall₂_outlineAll depth [] rest restContent
          rw [same, if_pos rfl]
          exact List.rel_append (List.rel_append (OutlineLine.forall₂_ofRun pending) fits) following
      | false =>
          rw [Markup.piece_of_notBlock depth block (content.listLevels block), if_neg nofun]
          exact Markup.forall₂_outlineAll depth _ rest restContent

theorem ListItem.forall₂_outline (depth : Nat) (widest : ℚ) : ∀ items : List ListItem,
    ListItem.AreListContent items → ∀ markers : List (List Char),
      (∀ marker ∈ markers, marker ≠ []) → markers.length = items.length →
      List.Forall₂ (Fits engine)
        (ListItem.outline engine depth (widest + engine.measure [' ']) items)
        (Line.nonBlank (List.zipWith (fun marker item => ListItem.lines engine widest marker
          ((Markup.lines depth item.children).answer engine)) markers items).flatten)
  | [], _, markers, _, count => by
      rw [List.length_eq_zero_iff.1 count]
      exact .nil
  | ⟨number, children⟩ :: rest, ⟨content, restContent⟩, markers, shown, count => by
      obtain ⟨marker, markers, rfl⟩ := List.exists_cons_of_length_eq_add_one count
      obtain ⟨first, others⟩ := List.forall_mem_cons.1 shown
      have inside := Markup.forall₂_outlineAll depth [] children content
      have following := ListItem.forall₂_outline depth widest rest restContent markers others
        (Nat.succ.inj count)
      rw [← Piece.nonBlank_lines, ← Markup.lines_answer] at inside
      rw [List.zipWith_cons_cons, List.flatten_cons, Line.nonBlank_append]
      refine List.rel_append (ListItem.forall₂_lines first ?_ inside) following
      rw [Markup.lines_answer]
      exact fun _ _ => Piece.isBlank_first

end

end Fits

/-- What lists look like without rounding, for an engine whose letters have no negative widths. The
lines of a list are those of its items, with the markers ending where a widest one ends. In lists
that hold nothing but inline nodes, paragraphs and lists, every line with text that starts no item
is indented by the sum of the margins of the lists around it, each of which is as wide as the widest
marker of its list and a space, and the glyphs of this sum stand in front of its text. -/
theorem list_layout {engine : Engine ℚ} (valid : engine.metrics.isValid = true)
    (fallback : 0 ≤ engine.fallback) :
    (∀ (kind : ListKind) (depth : Nat) (items : List ListItem),
      (Markup.piece depth (.list kind items)).answer engine =
          .block (kind.itemLines engine depth items) ∧
        (kind.markers depth items).length = items.length ∧
        IsWidest engine (kind.markers depth items) (kind.widest engine depth items)) ∧
      (∀ (widest : ℚ) (marker : List Char) (body : List (Line ℚ)),
        (ListItem.lines engine widest marker body).length = max 1 body.length) ∧
      ∀ (depth : Nat) (nodes : List Markup), Markup.AreListContent nodes →
        List.Forall₂ (OutlineLine.Fits engine) (Markup.outlineAll engine depth [] nodes)
          (Line.nonBlank ((Markup.lines depth nodes).answer engine)) := by
  refine ⟨fun kind depth items => ⟨Markup.piece_list_answer engine depth kind items,
    kind.length_markers depth items, kind.isWidest valid fallback depth items⟩,
    ListItem.length_lines engine, ?_⟩
  intro depth nodes content
  rw [Markup.lines_answer, Piece.nonBlank_lines]
  exact Markup.forall₂_outlineAll depth [] nodes content

/-- An engine in which all letters are as wide as a quarter of an em space. -/
def quarterEngine : Engine ℚ :=
  ⟨⟨[], [("\u2003", 100), ("\u2005", 25)]⟩, 25⟩

/-- Two numbered items of two lines each, with a list in the second one. -/
def numberedList : Markup :=
  .list (.ordered .decimal 9)
    [⟨none, [.text "a", .lineBreak, .text "b"]⟩,
      ⟨none, [.text "c", .list .unordered [⟨none, [.text "d", .lineBreak, .text "e"]⟩]]⟩]

/-- The second line of the inner item is indented by the margins of both lists, by that of the
greater number and by that of the bullet. -/
theorem quarterEngine_list_layout :
    quarterEngine.metrics.isValid = true ∧ 0 ≤ quarterEngine.fallback ∧
      IsWidest quarterEngine ["9.".toList, "10.".toList] 75 ∧
      Markup.outlineAll quarterEngine 0 [] [numberedList] =
        [.start, .inside [100] ['b'], .start, .start, .inside [100, 50] ['e']] ∧
      List.Forall₂ (OutlineLine.Fits quarterEngine)
        [.start, .inside [100] ['b'], .start, .start, .inside [100, 50] ['e']]
        (Line.nonBlank ((Markup.lines 0 [numberedList]).answer quarterEngine)) := by
  have valid : quarterEngine.metrics.isValid = true := by decide +kernel
  have fallback : 0 ≤ quarterEngine.fallback := by decide +kernel
  obtain ⟨lists, -, outlines⟩ := list_layout valid fallback
  have content : Markup.AreListContent [numberedList] :=
    ⟨⟨⟨rfl, rfl, rfl, trivial⟩, ⟨rfl, ⟨⟨rfl, rfl, rfl, trivial⟩, trivial⟩, trivial⟩, trivial⟩,
      trivial⟩
  have outline : Markup.outlineAll quarterEngine 0 [] [numberedList] =
      [.start, .inside [100] ['b'], .start, .start, .inside [100, 50] ['e']] := by decide +kernel
  have widest := (lists (.ordered .decimal 9) 0 [⟨none, []⟩, ⟨none, []⟩]).2.2
  refine ⟨valid, fallback, ?_, outline, outline ▸ outlines 0 [numberedList] content⟩
  convert widest using 1
  · decide +kernel
  · decide +kernel

end MessageBlocks
