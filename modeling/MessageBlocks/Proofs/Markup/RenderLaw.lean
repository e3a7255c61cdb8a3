import MessageBlocks.Markup.Render
import MessageBlocks.Proofs.Markup.Content

/-!
# Laws of rendering

A law of rendering relates markup to its rendered form: nodes within a line to a
run of text, preformatted nodes to verbatim text, nodes to lines and items to the
lines of a list. It is given by one rule for each step that the renderer can take.
Markup that obeys the content model is then related to what it is rendered to. The
renderer is walked once, here, for all laws.
-/

namespace MessageBlocks

variable {W : Type} [Width W]

/-- The text of a line as an engine shows it. -/
def Line.shown (engine : Engine W) (line : Line W) : List Char :=
  if line.isBlank then [] else engine.indent line.indent ++ line.text

/-- The steps of the renderer, each of which keeps the relations between markup and its
rendered form. -/
structure RenderLaw (engine : Engine W) (Run Verbatim : List Markup → List Char → Prop)
    (Rows : List Markup → List (Line W) → Prop)
    (Items : List ListItem → List (Line W) → Prop) : Prop where
  runNil : Run [] []
  runAppend {first second : List Markup} {before after : List Char} :
    Run first before → Run second after → Run (first ++ second) (before ++ after)
  text (content : String) : Run [.text content] (Text.escape (Text.collapse content.toList))
  bold {children : List Markup} {text : List Char} :
    Run children text → Run [.bold children] (Markup.marked '*' text)
  italic {children : List Markup} {text : List Char} :
    Run children text → Run [.italic children] (Markup.marked '_' text)
  strike {children : List Markup} {text : List Char} :
    Run children text → Run [.strike children] (Markup.marked '~' text)
  code {children : List Markup} : Markup.AreInline children →
    Run [.code children] (Markup.marked '\x60' (Text.escape (Markup.plainAll children)))
  link (target : Option String) {children : List Markup} {text : List Char} :
    Run children text → Run [.link target children] (Markup.linkText target text)
  time (timestamp : Option Int64) (fallback : Option String) {format : List Markup} :
    (∀ node ∈ format, ∃ content, node = .text content) →
      Run [.time timestamp fallback format]
        (Markup.timeText timestamp fallback (Markup.plainAll format))
  lineBreak : Run [.lineBreak] ['\n']
  verbatimNil : Verbatim [] []
  verbatimText (content : String) {nodes : List Markup} {text : List Char} :
    Verbatim nodes text →
      Verbatim (.text content :: nodes) (Text.escape content.toList ++ text)
  verbatimBreak {nodes : List Markup} {text : List Char} :
    Verbatim nodes text → Verbatim (.lineBreak :: nodes) ('\n' :: text)
  verbatimLink (target : Option String) {children nodes : List Markup}
    {label text : List Char} : Run children label → Verbatim nodes text →
      Verbatim (.link target children :: nodes) (Markup.linkText target label ++ text)
  rowsNil : Rows [] []
  rowsAppend {first second : List Markup} {before after : List (Line W)} :
    Rows first before → Rows second after → Rows (first ++ second) (before ++ after)
  rowsGap {nodes : List Markup} {lines : List (Line W)} :
    Rows nodes lines → Rows nodes (lines ++ [Line.flush []])
  rowsDropFirst {nodes : List Markup} {line : Line W} {lines : List (Line W)} :
    line.isBlank → Rows nodes (line :: lines) → Rows nodes lines
  rowsDropLast {nodes : List Markup} {line : Line W} {lines : List (Line W)} :
    line.isBlank → Rows nodes (lines ++ [line]) → Rows nodes lines
  run {nodes : List Markup} {text : List Char} :
    Run nodes text → Rows nodes (Line.ofRun text)
  paragraph {children : List Markup} {text : List Char} :
    Run children text → Rows [.paragraph children] (Line.ofRun text)
  blockquote (depth : Nat) {children : List Markup} :
    Rows children ((Markup.lines depth children).answer engine) →
      Rows [.blockquote children]
        (Line.quoted (((Markup.lines depth children).answer engine).map (Line.shown engine)))
  preformatted {children : List Markup} {text : List Char} :
    Verbatim children text → Rows [.preformatted children] (Line.fenced text)
  list (kind : ListKind) {items : List ListItem} {lines : List (Line W)} :
    Items items lines → Rows [.list kind items] lines
  itemsNil : Items [] []
  itemsCons (kind : ListKind) (depth : Nat) (number : Int64) (own : Option Int64)
    (padding content : W) {children : List Markup} {lines : List (Line W)}
    {items : List ListItem} {rest : List (Line W)} :
    Rows children lines → Items items rest →
      Items (⟨own, children⟩ :: items)
        (((ItemBody.ofLines lines).answer engine).lines (kind.marker depth number) padding content
          ++ rest)

namespace Line

theorem shown_of_text (engine : Engine W) {line : Line W} (text : line.isBlank = false) :
    line.shown engine = engine.indent line.indent ++ line.text :=
  if_neg (by simp [text])

theorem render_answer (engine : Engine W) (line : Line W) :
    line.render.answer engine = line.shown engine := by
  rw [render, shown]
  split <;> simp

theorem renderAll_answer (engine : Engine W) (lines : List (Line W)) :
    (renderAll lines).answer engine = lines.map (shown engine) := by
  induction lines with
  | nil => rfl
  | cons line rest ih => simp [renderAll, render_answer, ih]

/-! The texts of the lines that each kind of block makes, without their indents. -/

@[simp]
theorem text_flush (text : List Char) : (flush text : Line W).text = text :=
  rfl

theorem texts_ofRun (text : List Char) :
    (ofRun text : List (Line W)).map Line.text =
      if text.all (fun character => character == ' ' || character == '\n') then []
      else (Text.lines text).map Text.trimSpaces := by
  rw [ofRun]
  split
  · rfl
  · simp [Function.comp_def]

theorem texts_quoted (texts : List (List Char)) :
    (quoted texts : List (Line W)).map Line.text =
      texts.map fun text => if text.isEmpty then ['>'] else '>' :: ' ' :: text := by
  simp [quoted, Function.comp_def]

theorem texts_fenced (text : List Char) :
    (fenced text : List (Line W)).map Line.text =
      ['\x60', '\x60', '\x60'] :: Text.lines (Text.trimLineFeeds text) ++
        [['\x60', '\x60', '\x60']] := by
  simp [fenced, fence, Function.comp_def]

/-- The lines of an item without content are its marker. -/
theorem texts_item_nil (engine : Engine W) (marker : List Char) (padding content : W) :
    (((ItemBody.ofLines []).answer engine).lines marker padding content).map Line.text =
      [marker] :=
  rfl

/-- The lines of an item are those of its content, the first one as it is shown after the
marker. -/
theorem texts_item_cons (engine : Engine W) (marker : List Char) (padding content : W)
    (line : Line W) (rest : List (Line W)) :
    (((ItemBody.ofLines (line :: rest)).answer engine).lines marker padding content).map
        Line.text =
      (marker ++ ' ' :: line.shown engine) :: rest.map Line.text := by
  have further (other : Line W) :
      (if other.isBlank then Line.flush other.text
        else ⟨content + other.indent, other.text⟩ : Line W).text = other.text := by
    split <;> rfl
  rw [ItemBody.ofLines, Query.answer_bind, render_answer, Query.answer_pure]
  simp [ItemBody.lines, further]

end Line

theorem measureAll_answer (engine : Engine W) (texts : List (List Char)) :
    (measureAll texts).answer engine = texts.map engine.measure := by
  induction texts with
  | nil => rfl
  | cons text rest ih => simp [measureAll, ih]

theorem Markup.lines_answer (engine : Engine W) (depth : Nat) (nodes : List Markup) :
    (Markup.lines depth nodes).answer engine =
      Piece.lines ((Markup.pieces depth nodes).answer engine) := by
  rw [Markup.lines, Query.answer_map]

theorem Markup.render_answer (engine : Engine W) (nodes : List Markup) :
    (Markup.render nodes).answer engine =
      Text.unlines (((Markup.lines 0 nodes).answer engine).map (Line.shown engine)) := by
  rw [Markup.render, Query.answer_bind, Query.answer_bind, Line.renderAll_answer,
    Query.answer_pure]

namespace Page

/-- What comes before the next line of a page: an empty line, if a gap is due behind text. -/
def separator (page : Page W) : List (Line W) :=
  if page.gap && page.endsInText then [Line.flush []] else []

theorem pushAll_nil (page : Page W) : page.pushAll [] = page :=
  rfl

theorem pushAll_of_ne_nil (page : Page W) {lines : List (Line W)} (some : lines ≠ []) :
    page.pushAll lines = ⟨page.lines ++ page.separator ++ lines, false⟩ := by
  have further (page : Page W) (noGap : page.gap = false) (lines : List (Line W)) :
      page.pushAll lines = ⟨page.lines ++ lines, false⟩ := by
    induction lines generalizing page with
    | nil => simp [pushAll, ← noGap]
    | cons line rest ih =>
        have pushed : (page.push line).lines = page.lines ++ [line] := by simp [push, noGap]
        rw [pushAll, List.foldl_cons, ← pushAll, ih (page.push line) rfl, pushed]
        simp
  obtain ⟨line, rest, rfl⟩ := List.exists_cons_of_ne_nil some
  rw [pushAll, List.foldl_cons, ← pushAll, further (page.push line) rfl rest, push, separator]
  split <;> simp

/-- Adding lines adds them at the end, after one empty line if a gap is due. -/
theorem pushAll_lines (page : Page W) (lines : List (Line W)) :
    (page.pushAll lines).lines = page.lines ++ lines ∨
      (page.pushAll lines).lines = page.lines ++ [Line.flush []] ++ lines := by
  by_cases none : lines = []
  · exact .inl (by rw [none, pushAll_nil, List.append_nil])
  · rw [page.pushAll_of_ne_nil none, separator]
    split
    · exact .inr rfl
    · exact .inl (by rw [List.append_nil])

end Page

namespace RenderLaw

variable {engine : Engine W} {Run Verbatim : List Markup → List Char → Prop}
  {Rows : List Markup → List (Line W) → Prop} {Items : List ListItem → List (Line W) → Prop}

theorem rowsPushAll (law : RenderLaw engine Run Verbatim Rows Items) {done nodes : List Markup}
    {page : Page W} {lines : List (Line W)} (placed : Rows done page.lines)
    (next : Rows nodes lines) : Rows (done ++ nodes) (page.pushAll lines).lines := by
  rcases page.pushAll_lines lines with same | gapped
  · rw [same]
    exact law.rowsAppend placed next
  · rw [gapped]
    exact law.rowsAppend (law.rowsGap placed) next

theorem rowsDropWhile (law : RenderLaw engine Run Verbatim Rows Items) {nodes : List Markup}
    {lines : List (Line W)} (rows : Rows nodes lines) :
    Rows nodes (lines.dropWhile Line.isBlank) := by
  induction lines with
  | nil => exact rows
  | cons line rest ih =>
      rw [List.dropWhile_cons]
      split
      · next blank => exact ih (law.rowsDropFirst blank rows)
      · exact rows

/-- Finishing a page drops empty lines at both ends. -/
theorem rowsFinish (law : RenderLaw engine Run Verbatim Rows Items) {nodes : List Markup}
    {page : Page W} (rows : Rows nodes page.lines) : Rows nodes page.finish := by
  apply law.rowsDropWhile
  suffices ∀ lines : List (Line W), Rows nodes lines.reverse →
      Rows nodes (lines.dropWhile Line.isBlank).reverse from
    this page.lines.reverse (by simpa using rows)
  intro lines reversed
  induction lines with
  | nil => exact reversed
  | cons line rest ih =>
      rw [List.dropWhile_cons]
      split
      · next blank => exact ih (law.rowsDropLast blank (by simpa using reversed))
      · exact reversed

/-- What a law says about the piece that a node contributes to a page. -/
def Fits (Run : List Markup → List Char → Prop) (Rows : List Markup → List (Line W) → Prop)
    (node : Markup) : Piece W → Prop
  | .run text => Run [node] text
  | .paragraph text => Rows [node] (Line.ofRun text)
  | .block lines => Rows [node] lines

/-- Pieces are placed one after the other. The lines that are on the page stand for the
nodes that are done, and the pending run for the nodes since the last block. -/
theorem rowsPlace (law : RenderLaw engine Run Verbatim Rows Items)
    {done waiting nodes : List Markup} {page : Page W} {pending : List Char}
    {pieces : List (Piece W)} (placed : Rows done page.lines) (run : Run waiting pending)
    (fits : List.Forall₂ (Fits Run Rows) nodes pieces) :
    Rows (done ++ waiting ++ nodes) (Piece.place page pending pieces).lines := by
  induction fits generalizing done waiting page pending with
  | nil =>
      rw [List.append_nil]
      exact law.rowsPushAll placed (law.run run)
  | @cons node piece nodes pieces fit _ ih =>
      have flushed : Rows (done ++ waiting) (page.pushAll (Line.ofRun pending)).lines :=
        law.rowsPushAll placed (law.run run)
      cases piece with
      | run text =>
          have longer := ih placed (law.runAppend run fit)
          rw [Piece.place]
          simpa using longer
      | paragraph text =>
          have gapped : Rows (done ++ waiting)
              (page.pushAll (Line.ofRun pending)).requestGap.lines := flushed
          have shown : Rows (done ++ waiting ++ [node])
              ((page.pushAll (Line.ofRun pending)).requestGap.pushAll
                (Line.ofRun text)).requestGap.lines := law.rowsPushAll gapped fit
          have following := ih shown law.runNil
          rw [Piece.place]
          simpa using following
      | block lines =>
          have following := ih (law.rowsPushAll flushed fit) law.runNil
          rw [Piece.place]
          simpa using following

theorem rowsLines (law : RenderLaw engine Run Verbatim Rows Items) {depth : Nat}
    {nodes : List Markup}
    (fits : List.Forall₂ (Fits Run Rows) nodes ((Markup.pieces depth nodes).answer engine)) :
    Rows nodes ((Markup.lines depth nodes).answer engine) := by
  have opened : Rows [] (Page.empty : Page W).lines := law.rowsNil
  rw [Markup.lines_answer]
  exact law.rowsFinish (law.rowsPlace opened law.runNil fits)

/-- A list is laid out item by item. The markers and their widths are as many as the
items. -/
theorem itemsLines (law : RenderLaw engine Run Verbatim Rows Items) (kind : ListKind)
    (depth : Nat) (widest space : W) {items : List ListItem} {bodies : List (ItemBody W)}
    (fits : List.Forall₂ (fun item body => ∃ lines, Rows item.children lines ∧
      body = (ItemBody.ofLines lines).answer engine) items bodies)
    (numbers : List Int64) (widths : List W) (enoughNumbers : numbers.length = items.length)
    (enoughWidths : widths.length = items.length) :
    Items items
      (ListKind.lines widest space (numbers.map (kind.marker depth)) widths bodies) := by
  induction fits generalizing numbers widths with
  | nil =>
      rw [List.length_eq_zero_iff.1 enoughNumbers]
      exact law.itemsNil
  | @cons item _ _ _ fit _ ih =>
      obtain ⟨own, children⟩ := item
      obtain ⟨lines, rows, rfl⟩ := fit
      obtain ⟨number, numbers, rfl⟩ := List.exists_cons_of_length_eq_add_one enoughNumbers
      obtain ⟨width, widths, rfl⟩ := List.exists_cons_of_length_eq_add_one enoughWidths
      have following := ih numbers widths (Nat.succ.inj enoughNumbers) (Nat.succ.inj enoughWidths)
      rw [List.map_cons, ListKind.lines]
      exact law.itemsCons kind depth number own _ _ rows following

theorem length_numbers (number : Int64) (items : List ListItem) :
    (ListItem.numbers number items).length = items.length := by
  induction items generalizing number with
  | nil => rfl
  | cons item rest ih => simp [ListItem.numbers, ih]

/-- A node within a line contributes a run. -/
theorem piece_of_isInline (engine : Engine W) (depth : Nat) {node : Markup}
    (isInline : node.IsInline) : ∃ text, (Markup.piece depth node).answer engine = .run text := by
  cases node with
  | paragraph | blockquote | preformatted | list => cases isInline
  | text | code | time | lineBreak => exact ⟨_, rfl⟩
  | _ => exact ⟨_, by rw [Markup.piece, Query.answer_map]⟩

mutual

theorem fits_piece (law : RenderLaw engine Run Verbatim Rows Items) (depth : Nat) :
    ∀ node : Markup, node.IsFormed →
      Fits Run Rows node ((Markup.piece depth node).answer engine)
  | .text content, _ => law.text content
  | .bold children, formed => by
      rw [Markup.piece, Query.answer_map]
      exact law.bold (law.fits_run children formed)
  | .italic children, formed => by
      rw [Markup.piece, Query.answer_map]
      exact law.italic (law.fits_run children formed)
  | .strike children, formed => by
      rw [Markup.piece, Query.answer_map]
      exact law.strike (law.fits_run children formed)
  | .code children, formed => law.code formed
  | .link target children, formed => by
      rw [Markup.piece, Query.answer_map]
      exact law.link target (law.fits_run children formed)
  | .time timestamp fallback format, formed => law.time timestamp fallback formed
  | .lineBreak, _ => law.lineBreak
  | .paragraph children, formed => by
      rw [Markup.piece, Query.answer_map]
      exact law.paragraph (law.fits_run children formed)
  | .blockquote children, formed => by
      rw [Markup.piece, Query.answer_bind, Query.answer_bind, Line.renderAll_answer,
        ← Markup.lines_answer]
      exact law.blockquote depth (law.rowsLines (law.fits_pieces depth children formed))
  | .preformatted children, formed => by
      rw [Markup.piece, Query.answer_map]
      exact law.preformatted (law.fits_verbatim children formed)
  | .list kind items, formed => by
      rw [Markup.piece]
      simp only [Query.answer_bind, Query.answer_width, measureAll_answer, Query.answer_pure]
      exact law.list kind (law.itemsLines kind depth _ _ (law.fits_bodies (depth + 1) items formed)
        _ _ (length_numbers _ items) (by simp [ListKind.markers, length_numbers]))

theorem fits_pieces (law : RenderLaw engine Run Verbatim Rows Items) (depth : Nat) :
    ∀ nodes : List Markup, Markup.AreFormed nodes →
      List.Forall₂ (Fits Run Rows) nodes ((Markup.pieces depth nodes).answer engine)
  | [], _ => .nil
  | node :: rest, ⟨formed, restFormed⟩ => by
      rw [Markup.pieces, Query.answer_bind, Query.answer_bind, Query.answer_pure]
      exact .cons (law.fits_piece depth node formed) (law.fits_pieces depth rest restFormed)

theorem fits_run (law : RenderLaw engine Run Verbatim Rows Items) :
    ∀ nodes : List Markup, Markup.AreInline nodes → Run nodes ((Markup.run nodes).answer engine)
  | [], _ => law.runNil
  | node :: rest, ⟨isInline, restInline⟩ => by
      have fit := law.fits_piece 0 node isInline.isFormed
      obtain ⟨text, same⟩ := piece_of_isInline engine 0 isInline
      rw [same] at fit
      rw [Markup.run, Query.answer_bind, Query.answer_bind, same, Query.answer_bind]
      exact law.runAppend fit (law.fits_run rest restInline)

theorem fits_verbatim (law : RenderLaw engine Run Verbatim Rows Items) :
    ∀ nodes : List Markup, (∀ node ∈ nodes, node.IsVerbatim) →
      Verbatim nodes ((Markup.verbatim nodes).answer engine)
  | [], _ => law.verbatimNil
  | node :: rest, formed => by
      have following := law.fits_verbatim rest fun other member =>
        formed other (List.mem_cons_of_mem _ member)
      have first := formed node List.mem_cons_self
      cases node with
      | text content =>
          rw [Markup.verbatim, Query.answer_bind]
          exact law.verbatimText content following
      | link target children =>
          rw [Markup.verbatim, Query.answer_bind, Query.answer_bind]
          exact law.verbatimLink target (law.fits_run children first) following
      | lineBreak =>
          rw [Markup.verbatim, Query.answer_bind]
          exact law.verbatimBreak following
          all_goals nofun
      | _ => cases first

theorem fits_bodies (law : RenderLaw engine Run Verbatim Rows Items) (depth : Nat) :
    ∀ items : List ListItem, ListItem.AreFormed items →
      List.Forall₂ (fun item body => ∃ lines, Rows item.children lines ∧
        body = (ItemBody.ofLines lines).answer engine) items
        ((ListItem.bodies depth items).answer engine)
  | [], _ => .nil
  | ⟨number, children⟩ :: rest, ⟨formed, restFormed⟩ => by
      rw [ListItem.bodies, Query.answer_bind, Query.answer_bind, Query.answer_bind,
        Query.answer_pure, ← Markup.lines_answer]
      exact .cons ⟨_, law.rowsLines (law.fits_pieces depth children formed), rfl⟩
        (law.fits_bodies depth rest restFormed)

end

/-- Markup that obeys the content model is related to its lines. -/
theorem rows (law : RenderLaw engine Run Verbatim Rows Items) {nodes : List Markup}
    (formed : Markup.AreFormed nodes) :
    ∃ lines, Rows nodes lines ∧
      (Markup.render nodes).answer engine = Text.unlines (lines.map (Line.shown engine)) :=
  ⟨_, law.rowsLines (law.fits_pieces 0 nodes formed), Markup.render_answer engine nodes⟩

end RenderLaw

end MessageBlocks
