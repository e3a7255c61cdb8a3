import MessageBlocks.Proofs.Layout.Indents
import MessageBlocks.Proofs.Markup.Bullets
import MessageBlocks.Proofs.Markup.LineLaw
import MessageBlocks.Proofs.Trimming

/-!
# Empty lines between blocks

A paragraph asks for a gap before and after it, and a gap becomes an empty line when the next line
comes, unless the page ends in an empty line as it is. Where a gap is due, what comes next is put
behind the page as if it had been laid out on a page of its own. So the lines of a paragraph stand
between those of the nodes before it and those of the nodes after it, with empty lines in between
exactly if there is anything to be separated from.
-/

namespace MessageBlocks

namespace Page

variable {W : Type} [Width W] {page other : Page W} {lines : List (Line W)}

omit [Width W] in
theorem finish_eq (page : Page W) : page.finish = trimmed Line.isBlank page.lines :=
  rfl

theorem isBlank_separator (page : Page W) : ∀ line ∈ page.separator, line.isBlank := by
  rw [separator]
  split
  · exact List.forall_mem_singleton.2 rfl
  · exact List.forall_mem_nil _

/-- Where a gap is due, there are empty lines between what is on a page and what comes next, unless
one of them has no text. -/
theorem finish_pushAll (due : page.lines = [] ∨ page.gap = true) (lines : List (Line W)) :
    ∃ between : List (Line W), (∀ line ∈ between, line.isBlank) ∧
      (page.pushAll lines).finish = page.finish ++ between ++ trimmed Line.isBlank lines ∧
      (between = [] ↔ page.finish = [] ∨ trimmed Line.isBlank lines = []) := by
  by_cases nothing : lines = []
  · exact ⟨[], List.forall_mem_nil _, by simp [nothing, pushAll_nil, trimmed],
      by simp [nothing, trimmed]⟩
  rw [page.pushAll_of_ne_nil nothing, finish_eq, finish_eq]
  by_cases none : trimmed Line.isBlank page.lines = []
  · have blank := trimmed_eq_nil_iff.1 none
    have shown := trimmed_append_of_blank_left
      (List.forall_mem_append.2 ⟨blank, page.isBlank_separator⟩) lines
    exact ⟨[], List.forall_mem_nil _, by simpa [none] using shown, by simp [none]⟩
  by_cases noneNext : trimmed Line.isBlank lines = []
  · have blank := trimmed_eq_nil_iff.1 noneNext
    have shown := trimmed_append_of_blank_right page.lines
      (List.forall_mem_append.2 ⟨page.isBlank_separator, blank⟩)
    exact ⟨[], List.forall_mem_nil _, by simpa [noneNext] using shown, by simp [noneNext]⟩
  obtain ⟨between, blank, shown, touching⟩ :=
    trimmed_join none noneNext page.isBlank_separator
  refine ⟨between, blank, shown, iff_of_false (fun touch => ?_) (not_or.2 ⟨none, noneNext⟩)⟩
  obtain ⟨noGap, last, isLast, text⟩ := touching touch
  have lines : page.lines ≠ [] := List.ne_nil_of_mem (List.mem_of_getLast? isLast)
  rw [separator, due.resolve_left lines, endsInText, Option.mem_def.1 isLast, Option.any_some,
    text] at noGap
  cases noGap

omit [Width W] in
theorem requestGap_due (page : Page W) :
    page.requestGap.lines = [] ∨ page.requestGap.gap = true := by
  cases none : page.lines with
  | nil => exact .inl none
  | cons line rest => exact .inr (by simp [requestGap, none])

/-- A page to which the lines of another one are added, all in one. -/
def continued (page other : Page W) : Page W :=
  if other.lines.isEmpty then page else ⟨(page.pushAll other.lines).lines, other.gap⟩

theorem continued_empty (page : Page W) : page.continued empty = page :=
  rfl

theorem lines_continued (page other : Page W) :
    (page.continued other).lines = (page.pushAll other.lines).lines := by
  rw [continued]
  split
  · next none => rw [List.isEmpty_iff.1 none, pushAll_nil]
  · rfl

theorem continued_of_ne_nil (page : Page W) (some : other.lines ≠ []) :
    page.continued other = ⟨page.lines ++ page.separator ++ other.lines, other.gap⟩ := by
  rw [continued, if_neg (by simpa using some), page.pushAll_of_ne_nil some]

theorem continued_pushAll (page other : Page W) (lines : List (Line W)) :
    (page.continued other).pushAll lines = page.continued (other.pushAll lines) := by
  by_cases nothing : lines = []
  · rw [nothing, pushAll_nil, pushAll_nil]
  have someLines : (other.pushAll lines).lines ≠ [] := by
    simp [other.pushAll_of_ne_nil nothing, nothing]
  rw [continued_of_ne_nil page someLines, pushAll_of_ne_nil _ nothing, pushAll_of_ne_nil _ nothing]
  by_cases none : other.lines = []
  · have noGap : other.separator = [] := by simp [separator, endsInText, none]
    have same : page.continued other = page := by simp [continued, none]
    rw [same, none, noGap]
    rfl
  · have sameGap : (page.continued other).gap = other.gap := by rw [continued_of_ne_nil page none]
    have sameEnd : (page.continued other).endsInText = other.endsInText := by
      rw [continued_of_ne_nil page none, endsInText, List.getLast?_append_of_ne_nil _ none,
        endsInText]
    have same : (page.continued other).separator = other.separator := by
      rw [separator, sameGap, sameEnd, separator]
    rw [same, continued_of_ne_nil page none]
    simp only [List.append_assoc]

theorem continued_requestGap (due : page.gap = true) (other : Page W) :
    (page.continued other).requestGap = page.continued other.requestGap := by
  by_cases none : other.lines = []
  · have same : page.continued other = page := by simp [continued, none]
    have sameNext : page.continued other.requestGap = page := by
      simp [continued, requestGap, none]
    rw [same, sameNext, requestGap, due, Bool.true_or, ← due]
  · have noneNext : other.requestGap.lines ≠ [] := none
    have opened : other.lines.isEmpty = false := List.isEmpty_eq_false_iff.2 none
    have shown : (page.lines ++ page.separator ++ other.lines).isEmpty = false :=
      List.isEmpty_eq_false_iff.2 (List.append_ne_nil_of_right_ne_nil _ none)
    rw [continued_of_ne_nil page noneNext, continued_of_ne_nil page none, requestGap, requestGap,
      opened, shown]

end Page

namespace Piece

variable {W : Type} [Width W] {page : Page W} {pending text : List Char}
  {before after pieces : List (Piece W)}

/-- Where a gap is due, pieces are placed as on a page of their own. -/
theorem place_continued (due : page.gap = true) (other : Page W) (pending : List Char)
    (pieces : List (Piece W)) :
    place (page.continued other) pending pieces = page.continued (place other pending pieces) := by
  induction pieces generalizing other pending with
  | nil => exact page.continued_pushAll other _
  | cons piece rest ih =>
      cases piece with
      | run text => exact ih other _
      | paragraph text =>
          simp only [place, Page.continued_pushAll, Page.continued_requestGap due]
          exact ih _ _
      | block lines =>
          simp only [place, Page.continued_pushAll]
          exact ih _ _

/-- The page after a paragraph with some lines, whatever comes next. -/
theorem place_append_paragraph (page : Page W) (pending : List Char) (before : List (Piece W))
    (text : List Char) (after : List (Piece W)) :
    place page pending (before ++ .paragraph text :: after) =
      place ((place page pending before).requestGap.pushAll (Line.ofRun text)).requestGap []
        after := by
  induction before generalizing page pending with
  | nil => rfl
  | cons piece rest ih => cases piece <;> exact ih _ _

theorem place_paragraph (text : List Char) :
    (place Page.empty [] [.paragraph text] : Page W).lines = Line.ofRun text := by
  have same := place_append_paragraph (Page.empty : Page W) [] [] text []
  rw [List.nil_append] at same
  by_cases nothing : (Line.ofRun text : List (Line W)) = []
  · rw [same, nothing]
    rfl
  · rw [same, Page.pushAll_of_ne_nil _ nothing]
    exact List.nil_append _

/-- The lines of a paragraph stand between those of the pieces before it and those of the pieces
after it, with empty lines in between if there are any. -/
theorem lines_around_paragraph (before after : List (Piece W)) {text : List Char}
    (shown : lines [(.paragraph text : Piece W)] ≠ []) :
    ∃ above below : List (Line W), (∀ line ∈ above ++ below, line.isBlank) ∧
      lines (before ++ .paragraph text :: after) =
        lines before ++ above ++ lines [.paragraph text] ++ below ++ lines after ∧
      (above = [] ↔ lines before = []) ∧ (below = [] ↔ lines after = []) := by
  have own : trimmed Line.isBlank (Line.ofRun text) = lines [(.paragraph text : Piece W)] := by
    rw [lines, Page.finish_eq, place_paragraph]
  have some : (Line.ofRun text : List (Line W)) ≠ [] := fun none => shown (by rw [← own, none]; rfl)
  obtain ⟨opened, isOpened⟩ : ∃ page, page = (place (Page.empty : Page W) [] before).requestGap :=
    ⟨_, rfl⟩
  have finishOpened : opened.finish = lines before := by rw [isOpened]; rfl
  obtain ⟨above, blankAbove, wholeAbove, touchAbove⟩ :=
    Page.finish_pushAll (isOpened ▸ Page.requestGap_due _) (Line.ofRun text)
  obtain ⟨closed, isClosed⟩ : ∃ page, page = (opened.pushAll (Line.ofRun text)).requestGap :=
    ⟨_, rfl⟩
  have finishClosed : closed.finish = (opened.pushAll (Line.ofRun text)).finish := by
    rw [isClosed]; rfl
  have due : closed.gap = true := by
    refine (isClosed ▸ Page.requestGap_due _).resolve_left fun none => some ?_
    have sameLines : closed.lines = (opened.pushAll (Line.ofRun text)).lines := by
      rw [isClosed]; rfl
    rw [opened.pushAll_of_ne_nil some, none] at sameLines
    exact (List.append_eq_nil_iff.1 sameLines.symm).2
  obtain ⟨below, blankBelow, wholeBelow, touchBelow⟩ :=
    Page.finish_pushAll (.inr due) (place Page.empty [] after).lines
  have next : trimmed Line.isBlank (place (Page.empty : Page W) [] after).lines = lines after := rfl
  rw [finishClosed, wholeAbove, finishOpened, own, next] at wholeBelow touchBelow
  rw [finishOpened, own] at touchAbove
  refine ⟨above, below, List.forall_mem_append.2 ⟨blankAbove, blankBelow⟩, ?_, ?_, ?_⟩
  · rw [lines, place_append_paragraph, ← isOpened, ← isClosed, ← closed.continued_empty,
      place_continued due, Page.finish_eq, Page.lines_continued]
    exact wholeBelow
  · simpa [shown] using touchAbove
  · simpa [shown] using touchBelow

end Piece

section Alone

variable {W : Type} [Width W] {text : List Char}

theorem Text.mem_trimSpaces {character : Char} (notSpace : character ≠ ' ') {row : List Char}
    (inRow : character ∈ row) : character ∈ trimSpaces row := by
  have kept : (trimSpaces row).filter (· != ' ') = row.filter (· != ' ') :=
    filter_trimBy (fun other isSpace => by simp [eq_of_beq isSpace]) row
  have inFilter : character ∈ row.filter (· != ' ') := by simp [inRow, notSpace]
  rw [← kept] at inFilter
  exact List.mem_of_mem_filter inFilter

/-- A run has lines with text unless it is made of spaces and line feeds, and then it has none. -/
theorem Line.nonBlank_ofRun_eq_nil_iff :
    nonBlank (ofRun text : List (Line W)) = [] ↔
      text.all (fun character => character == ' ' || character == '\n') = true := by
  constructor
  · intro none
    by_contra notAll
    obtain ⟨character, inText, isText⟩ :
        ∃ character ∈ text, ¬ (character = ' ' ∨ character = '\n') := by
      simpa using notAll
    obtain ⟨notSpace, notFeed⟩ := not_or.1 isText
    rw [← Text.unlines_lines text] at inText
    obtain ⟨row, member, inRow⟩ := Text.mem_of_mem_unlines notFeed inText
    have inOwn : flush (Text.trimSpaces row) ∈ (ofRun text : List (Line W)) := by
      rw [ofRun, if_neg notAll]
      exact List.mem_map_of_mem member
    have isBlank := List.filter_eq_nil_iff.1 none _ inOwn
    have shown := Text.mem_trimSpaces notSpace inRow
    have empty : Text.trimSpaces row = [] := by simpa [Line.isBlank] using isBlank
    rw [empty] at shown
    cases shown
  · intro all
    rw [ofRun, if_pos all]
    rfl

theorem Piece.nonBlank_eq_nil_iff {pending : List Char} {pieces : List (Piece W)} :
    nonBlank pending pieces = [] ↔
      Line.nonBlank (Line.ofRun pending : List (Line W)) = [] ∧
        ∀ piece ∈ pieces, nonBlank [] [piece] = [] := by
  have opened : Line.nonBlank (Line.ofRun [] : List (Line W)) = [] := rfl
  induction pieces generalizing pending with
  | nil => simp [nonBlank]
  | cons piece rest ih =>
      rw [List.forall_mem_cons]
      cases piece with
      | run text =>
          simp only [nonBlank, ih, List.nil_append, Line.nonBlank_ofRun_eq_nil_iff,
            List.all_append, Bool.and_eq_true, and_assoc]
      | paragraph text | block lines =>
          simp only [nonBlank, ih, opened, List.append_eq_nil_iff, List.nil_append,
            List.append_nil, true_and, and_assoc]

theorem Piece.lines_eq_nil_iff_nonBlank {pieces : List (Piece W)} :
    lines pieces = [] ↔ nonBlank [] pieces = [] := by
  rw [← nonBlank_lines]
  cases same : lines pieces with
  | nil => exact iff_of_true rfl rfl
  | cons first rest =>
      have text : (!first.isBlank) = true := by rw [isBlank_first same]; rfl
      have shown : Line.nonBlank (first :: rest) = first :: Line.nonBlank rest :=
        List.filter_cons_of_pos text
      rw [shown]
      exact iff_of_false (List.cons_ne_nil _ _) (List.cons_ne_nil _ _)

/-- Pieces have lines exactly if one of them has by itself. -/
theorem Piece.lines_eq_nil_iff {pieces : List (Piece W)} :
    lines pieces = [] ↔ ∀ piece ∈ pieces, lines [piece] = [] := by
  rw [lines_eq_nil_iff_nonBlank, nonBlank_eq_nil_iff]
  exact ⟨fun ⟨_, empty⟩ piece member => lines_eq_nil_iff_nonBlank.2 (empty piece member),
    fun empty => ⟨rfl, fun piece member => lines_eq_nil_iff_nonBlank.1 (empty piece member)⟩⟩

end Alone

/-- What pieces contribute to a page one after the other, behind a run that is pending. -/
def Piece.contributions {W : Type} [Width W] (pending : List Char) :
    List (Piece W) → List (List (Line W))
  | [] => [Line.ofRun pending]
  | .run text :: rest => contributions (pending ++ text) rest
  | .paragraph text :: rest => Line.ofRun pending :: Line.ofRun text :: contributions [] rest
  | .block lines :: rest => Line.ofRun pending :: lines :: contributions [] rest

/-- `Laid contributions lines`: the lines of a page to which the contributions have been added in
turn. In front of a contribution stands a single empty line or none, and none if the lines up to
there end in an empty one. -/
inductive Line.Laid {W : Type} [Width W] : List (List (Line W)) → List (Line W) → Prop where
  | nil : Laid [] []
  | next {contributions : List (List (Line W))} {lines : List (Line W)}
      (laid : Laid contributions lines) (rows : List (Line W)) :
      Laid (contributions ++ [rows]) (lines ++ rows)
  | apart {contributions : List (List (Line W))} {lines : List (Line W)} {last : Line W}
      (laid : Laid contributions lines) (ends : lines.getLast? = some last)
      (text : last.isBlank = false) {rows : List (Line W)} (some : rows ≠ []) :
      Laid (contributions ++ [rows]) (lines ++ [Line.flush []] ++ rows)

section Shown

variable {W : Type} [Width W]

/-- Whether one of some lines has text, if there are any. -/
def Line.AreShown (lines : List (Line W)) : Prop :=
  lines = [] ∨ ∃ line ∈ lines, line.isBlank = false

theorem Line.areShown_ofRun (text : List Char) : AreShown (ofRun text : List (Line W)) := by
  by_cases all : text.all (fun character => character == ' ' || character == '\n') = true
  · exact .inl (if_pos all)
  · obtain ⟨line, member⟩ := List.exists_mem_of_ne_nil (nonBlank (ofRun text : List (Line W)))
      (nonBlank_ofRun_eq_nil_iff.not.2 all)
    obtain ⟨inRun, isText⟩ := List.mem_filter.1 member
    exact .inr ⟨line, inRun, by simpa using isText⟩

theorem Line.areShown_quoted (texts : List (List Char)) :
    AreShown (quoted texts : List (Line W)) := by
  cases texts with
  | nil => exact .inl rfl
  | cons text rest =>
      refine .inr ⟨quote text, List.mem_cons_self, ?_⟩
      rw [quote]
      split <;> rfl

theorem ListKind.areShown_itemLines (engine : Engine W) (kind : ListKind) (depth : Nat)
    (items : List ListItem) : Line.AreShown (kind.itemLines engine depth items) := by
  by_cases none : kind.itemLines engine depth items = []
  · exact .inl none
  · obtain ⟨line, member⟩ := List.exists_mem_of_ne_nil _ none
    obtain ⟨number, item, -, -, among⟩ := exists_of_mem_itemLines member
    have marker := kind.marker_ne_nil depth number
    cases same : (Markup.lines (depth + 1) item.children).answer engine with
    | nil =>
        rw [same, ListItem.lines] at among
        exact .inr ⟨_, among List.mem_cons_self, by simp [Line.isBlank, marker]⟩
    | cons first rest =>
        rw [same, ListItem.lines] at among
        exact .inr ⟨_, among List.mem_cons_self, by simp [Line.isBlank]⟩

/-- The lines of a block are quoted, fenced or those of items, and none of these are all blank. -/
theorem Markup.areShown_block (engine : Engine W) (depth : Nat) (node : Markup)
    {lines : List (Line W)} (isBlock : (piece depth node).answer engine = .block lines) :
    Line.AreShown lines := by
  cases node with
  | text | code | time | lineBreak => cases isBlock
  | bold | italic | strike | link | paragraph =>
      rw [piece, Query.answer_map] at isBlock
      cases isBlock
  | blockquote children =>
      simp only [piece, Query.answer_bind, Query.answer_pure] at isBlock
      cases isBlock
      exact Line.areShown_quoted _
  | preformatted children =>
      rw [piece, Query.answer_map] at isBlock
      cases isBlock
      exact .inr ⟨Line.fence, List.mem_cons_self, rfl⟩
  | list kind items =>
      rw [piece_list_answer] at isBlock
      cases isBlock
      exact kind.areShown_itemLines engine depth items

theorem Piece.areShown_of_mem_contributions {pieces : List (Piece W)}
    (blocks : ∀ lines, .block lines ∈ pieces → Line.AreShown lines) (pending : List Char) :
    ∀ rows ∈ contributions pending pieces, Line.AreShown rows := by
  induction pieces generalizing pending with
  | nil => exact List.forall_mem_singleton.2 (Line.areShown_ofRun pending)
  | cons piece rest ih =>
      have following := ih fun lines member => blocks lines (List.mem_cons_of_mem _ member)
      cases piece with
      | run text => exact following _
      | paragraph text =>
          exact List.forall_mem_cons.2 ⟨Line.areShown_ofRun pending,
            List.forall_mem_cons.2 ⟨Line.areShown_ofRun text, following []⟩⟩
      | block lines =>
          exact List.forall_mem_cons.2 ⟨Line.areShown_ofRun pending,
            List.forall_mem_cons.2 ⟨blocks lines List.mem_cons_self, following []⟩⟩

end Shown

namespace Line.Laid

variable {W : Type} [Width W] {contributions : List (List (Line W))} {page : Page W}

theorem requestGap (laid : Laid contributions page.lines) :
    Laid contributions page.requestGap.lines :=
  laid

/-- A separator needs a line with text in front of it. -/
theorem pushAll (laid : Laid contributions page.lines) (rows : List (Line W)) :
    Laid (contributions ++ [rows]) (page.pushAll rows).lines := by
  by_cases nothing : rows = []
  · have same := laid.next []
    rw [List.append_nil] at same
    rwa [nothing, Page.pushAll_nil]
  · rw [page.pushAll_of_ne_nil nothing, Page.separator]
    split
    · next due =>
        obtain ⟨-, endsInText⟩ := Bool.and_eq_true_iff.1 due
        obtain ⟨last, ends, text⟩ := (Option.any_eq_true _ _).1 endsInText
        exact laid.apart ends (by simpa using text) nothing
    · rw [List.append_nil]
      exact laid.next rows

/-- Each piece adds what it contributes to the page that is there by then. -/
theorem place (laid : Laid contributions page.lines) (pending : List Char)
    (pieces : List (Piece W)) :
    Laid (contributions ++ Piece.contributions pending pieces)
      (Piece.place page pending pieces).lines := by
  induction pieces generalizing contributions page pending with
  | nil => exact laid.pushAll _
  | cons piece rest ih =>
      have flushed := laid.pushAll (Line.ofRun pending)
      cases piece with
      | run text => exact ih laid _
      | paragraph text =>
          rw [Piece.contributions, List.append_cons, List.append_cons]
          exact ih (flushed.requestGap.pushAll (Line.ofRun text)).requestGap []
      | block lines =>
          rw [Piece.contributions, List.append_cons, List.append_cons]
          exact ih (flushed.pushAll lines) []

end Line.Laid

namespace Markup

variable {W : Type} [Width W]

theorem pieces_answer (engine : Engine W) (depth : Nat) (nodes : List Markup) :
    (pieces depth nodes).answer engine =
      nodes.map fun node => (piece depth node).answer engine := by
  induction nodes with
  | nil => rfl
  | cons node rest ih => rw [pieces_answer_cons, List.map_cons, ih]

theorem lines_eq_nil_iff (engine : Engine W) (depth : Nat) (nodes : List Markup) :
    (lines depth nodes).answer engine = [] ↔
      ∀ sibling ∈ nodes, (lines depth [sibling]).answer engine = [] := by
  rw [lines_answer, Piece.lines_eq_nil_iff, pieces_answer, List.forall_mem_map]
  simp only [lines_answer, pieces_answer, List.map_cons, List.map_nil]

theorem lines_around_paragraph (engine : Engine W) (depth : Nat)
    (before children after : List Markup)
    (shown : (lines depth [.paragraph children]).answer engine ≠ []) :
    ∃ above below : List (Line W), (∀ line ∈ above ++ below, line.isBlank) ∧
      (lines depth (before ++ .paragraph children :: after)).answer engine =
        (lines depth before).answer engine ++ above ++
          (lines depth [.paragraph children]).answer engine ++ below ++
            (lines depth after).answer engine ∧
      (above = [] ↔ ∀ sibling ∈ before, (lines depth [sibling]).answer engine = []) ∧
      (below = [] ↔ ∀ sibling ∈ after, (lines depth [sibling]).answer engine = []) := by
  have own : (piece depth (.paragraph children)).answer engine =
      .paragraph ((run children).answer engine) := by
    rw [piece, Query.answer_map]
  rw [← lines_eq_nil_iff, ← lines_eq_nil_iff]
  simp only [lines_answer, pieces_answer, List.map_append, List.map_cons, List.map_nil, own]
    at shown ⊢
  exact Piece.lines_around_paragraph _ _ shown

theorem isTight_lines (engine : Engine W) (depth : Nat) (nodes : List Markup) :
    IsTight Line.isBlank ((lines depth nodes).answer engine) := by
  rw [lines_answer]
  exact isTight_trimmed _ _

/-- The page of some nodes before it is trimmed. -/
def page (engine : Engine W) (depth : Nat) (nodes : List Markup) : Page W :=
  Piece.place .empty [] ((pieces depth nodes).answer engine)

theorem laid_page (engine : Engine W) (depth : Nat) (nodes : List Markup) :
    Line.Laid (Piece.contributions [] ((pieces depth nodes).answer engine))
      (page engine depth nodes).lines := by
  have opened : Line.Laid [] (Page.empty : Page W).lines := .nil
  exact opened.place [] ((pieces depth nodes).answer engine)

theorem areShown_contributions (engine : Engine W) (depth : Nat) (nodes : List Markup) :
    ∀ rows ∈ Piece.contributions [] ((pieces depth nodes).answer engine),
      Line.AreShown rows := by
  refine Piece.areShown_of_mem_contributions (fun lines member => ?_) []
  rw [pieces_answer] at member
  obtain ⟨node, -, isBlock⟩ := List.mem_map.1 member
  exact areShown_block engine depth node isBlock

/-- The lines of a rendered text are those of its markup as they are shown. -/
theorem lines_render {engine : Engine W} (indents : ∀ width, '\n' ∉ engine.indent width)
    {nodes : List Markup} (shown : (render nodes).answer engine ≠ []) :
    (lines 0 nodes).answer engine ≠ [] ∧ Text.lines ((render nodes).answer engine) =
      ((lines 0 nodes).answer engine).map (Line.shown engine) := by
  rw [render_answer] at shown ⊢
  have some : (lines 0 nodes).answer engine ≠ [] := fun none => shown (by rw [none]; rfl)
  have single : ∀ row ∈ ((lines 0 nodes).answer engine).map (Line.shown engine), '\n' ∉ row := by
    rw [List.forall_mem_map]
    exact fun line member =>
      Line.lineFeed_notMem_shown indents (lineFeed_notMem_lines indents 0 nodes line member)
  exact ⟨some, Text.lines_unlines (by simpa using some) single⟩

/-- A rendered text that is not empty neither starts nor ends with an empty line. -/
theorem ends_render {engine : Engine W} (indents : ∀ width, '\n' ∉ engine.indent width)
    {nodes : List Markup} (shown : (render nodes).answer engine ≠ []) :
    (Text.lines ((render nodes).answer engine)).head? ≠ some [] ∧
      (Text.lines ((render nodes).answer engine)).getLast? ≠ some [] := by
  obtain ⟨some, rows⟩ := lines_render indents shown
  have tight := isTight_lines engine 0 nodes
  have text {line : Line W} (isText : line.isBlank = false) : line.shown engine ≠ [] := by
    rw [Line.shown_of_text engine isText]
    exact List.append_ne_nil_of_right_ne_nil _ (List.isEmpty_eq_false_iff.1 isText)
  rw [rows, List.head?_map, List.getLast?_map]
  constructor <;> rw [ne_eq, Option.map_eq_some_iff] <;> rintro ⟨line, isEnd, empty⟩
  · exact text (tight.first line isEnd) empty
  · exact text (tight.last line isEnd) empty

/-- For any markup and any engine whose space glyphs have no line feed: lines are single ones. A
rendered text starts and ends with text. The lines of a paragraph stand between those of the nodes
before and after it, with empty lines in between exactly if a node there has lines of its own. And
what is trimmed in the end is a page on which a separator is put in front of a contribution only
where the lines up to there end in one with text. What contributes lines contributes one with text,
so a page leaves no doubt about where its separators are. -/
theorem paragraphs_are_separated (engine : Engine W)
    (glyphs : ∀ entry ∈ engine.metrics.spaces, '\n' ∉ entry.1.toList) (nodes : List Markup) :
    (∀ depth, ∀ line ∈ (lines depth nodes).answer engine, '\n' ∉ line.text) ∧
    ((render nodes).answer engine ≠ [] →
      (Text.lines ((render nodes).answer engine)).head? ≠ some [] ∧
      (Text.lines ((render nodes).answer engine)).getLast? ≠ some []) ∧
    (∀ depth before children after, nodes = before ++ .paragraph children :: after →
      (lines depth [.paragraph children]).answer engine ≠ [] →
      ∃ above below : List (Line W), (∀ line ∈ above ++ below, line.isBlank) ∧
        (lines depth nodes).answer engine =
          (lines depth before).answer engine ++ above ++
            (lines depth [.paragraph children]).answer engine ++ below ++
              (lines depth after).answer engine ∧
        (above = [] ↔ ∀ sibling ∈ before, (lines depth [sibling]).answer engine = []) ∧
        (below = [] ↔ ∀ sibling ∈ after, (lines depth [sibling]).answer engine = [])) ∧
    ∀ depth, (lines depth nodes).answer engine =
        trimmed Line.isBlank (page engine depth nodes).lines ∧
      Line.Laid (Piece.contributions [] ((pieces depth nodes).answer engine))
        (page engine depth nodes).lines ∧
      ∀ rows ∈ Piece.contributions [] ((pieces depth nodes).answer engine),
        Line.AreShown rows := by
  have indents (width : W) : '\n' ∉ engine.indent width := Engine.notMem_indent glyphs width
  refine ⟨fun depth => lineFeed_notMem_lines indents depth nodes, ends_render indents, ?_,
    fun depth => ⟨lines_answer engine depth nodes, laid_page engine depth nodes,
      areShown_contributions engine depth nodes⟩⟩
  rintro depth before children after rfl shown
  exact lines_around_paragraph engine depth before children after shown

/-- A paragraph that ends in a line break, between text and a quote. -/
def partedNote : List Markup :=
  [.text "a ", .paragraph [.text "b", .lineBreak], .blockquote [.text "c"]]

/-- The paragraph of the note has an empty line on both sides. The lower one is its own. -/
theorem partedNote_separated :
    (∀ entry ∈ Engine.reference.metrics.spaces, '\n' ∉ entry.1.toList) ∧
      (render partedNote).answer Engine.reference = "a\n\nb\n\n> c".toList ∧
      (Text.lines "a\n\nb\n\n> c".toList).head? ≠ some [] ∧
      (lines 0 [.paragraph [.text "b", .lineBreak]]).answer Engine.reference ≠ [] ∧
      ∃ above below : List (Line Float), above ≠ [] ∧ below ≠ [] ∧
        (∀ line ∈ above ++ below, line.isBlank) ∧
        (lines 0 partedNote).answer Engine.reference =
          (lines 0 [.text "a "]).answer Engine.reference ++ above ++
            (lines 0 [.paragraph [.text "b", .lineBreak]]).answer Engine.reference ++ below ++
              (lines 0 [.blockquote [.text "c"]]).answer Engine.reference := by
  have glyphs : ∀ entry ∈ Engine.reference.metrics.spaces, '\n' ∉ entry.1.toList := by
    intro entry member inEntry
    exact absurd (Metrics.code_of_mem_reference member inEntry).1 (by decide)
  have rendered : (render partedNote).answer Engine.reference = "a\n\nb\n\n> c".toList := by rfl
  have shown : (lines 0 [.paragraph [.text "b", .lineBreak]]).answer Engine.reference ≠ [] :=
    List.cons_ne_nil _ _
  obtain ⟨-, ends, around, -⟩ := paragraphs_are_separated Engine.reference glyphs partedNote
  obtain ⟨above, below, blank, whole, aboveNil, belowNil⟩ :=
    around 0 [.text "a "] [.text "b", .lineBreak] [.blockquote [.text "c"]] rfl shown
  rw [rendered] at ends
  refine ⟨glyphs, rendered, (ends (by decide)).1, shown, above, below, ?_, ?_, blank, whole⟩
  · rw [ne_eq, aboveNil, List.forall_mem_singleton]
    exact List.cons_ne_nil _ _
  · rw [ne_eq, belowNil, List.forall_mem_singleton]
    exact List.cons_ne_nil _ _

/-- Behind a line break no separator is added to the empty line that is there. -/
example : (render [.text "a", .lineBreak, .paragraph [.text "b"]]).answer Engine.reference =
    "a\n\nb".toList := by
  rfl

end Markup

end MessageBlocks
