import MessageBlocks.Proofs.Markup.Readback

/-!
# Brackets in rendered markup

The escape leaves no angle bracket in text, and what the renderer adds holds none but the
prefix of quoted lines. So rendered markup without tokens has no `<`, and from each `>` on
a row is a line of some quote, with nothing but indents, markers and prefixes of other
quotes in front.
-/

namespace MessageBlocks

open Text

variable {W : Type} [Width W]

/-- `Markup.Quotes nodes children`: a quote of these children is one of the nodes, or stands
in one of them. -/
inductive Markup.Quotes : List Markup → List Markup → Prop where
  | here {nodes children : List Markup} (member : .blockquote children ∈ nodes) :
      Quotes nodes children
  | quote {nodes inner children : List Markup} (member : .blockquote inner ∈ nodes)
      (inside : Quotes inner children) : Quotes nodes children
  | item {nodes children : List Markup} {kind : ListKind} {items : List ListItem}
      {item : ListItem} (member : .list kind items ∈ nodes) (among : item ∈ items)
      (inside : Quotes item.children children) : Quotes nodes children

theorem Markup.Quotes.mono {nodes others children : List Markup} (subset : nodes ⊆ others)
    (quotes : Quotes nodes children) : Quotes others children := by
  cases quotes with
  | here member => exact .here (subset member)
  | quote member inside => exact .quote (subset member) inside
  | item member among inside => exact .item (subset member) among inside

/-- The rows of a quote that stands in lists to the given depth. -/
def Markup.quotedRows (engine : Engine W) (depth : Nat) (children : List Markup) :
    List (List Char) :=
  (Line.quoted (((Markup.lines depth children).answer engine).map (Line.shown engine))).map
    (Line.text (W := W))

/-- What may stand in a row in front of its text: indents, markers and the prefixes of
quoted lines. -/
inductive IsMargin (engine : Engine W) : List Char → Prop where
  | nil : IsMargin engine []
  | indent (width : W) {rest : List Char} :
      IsMargin engine rest → IsMargin engine (engine.indent width ++ rest)
  | marker (kind : ListKind) (depth : Nat) (number : Int64) {rest : List Char} :
      IsMargin engine rest → IsMargin engine (kind.marker depth number ++ ' ' :: rest)
  | quoted {rest : List Char} : IsMargin engine rest → IsMargin engine ('>' :: ' ' :: rest)

/-- A row that holds no bracket but the prefixes of some quotes: from each `>` on it is a row
of one of them. -/
structure IsInertRow (engine : Engine W) (quotes : List Markup → Prop) (row : List Char) :
    Prop where
  noOpen : '<' ∉ row
  prefixes : ∀ before after, row = before ++ '>' :: after →
    IsMargin engine before ∧ ∃ depth children, quotes children ∧
      '>' :: after ∈ Markup.quotedRows engine depth children

/-- A text in front of the first `>` can be taken away. -/
theorem Text.exists_of_append_eq {lead text before after : List Char} (noClose : '>' ∉ lead)
    (same : lead ++ text = before ++ '>' :: after) :
    ∃ further, before = lead ++ further ∧ text = further ++ '>' :: after := by
  rcases List.append_eq_append_iff.1 same with ⟨further, inBefore, rest⟩ | ⟨middle, inLead, rest⟩
  · exact ⟨further, inBefore, rest⟩
  · cases middle with
    | nil => exact ⟨[], by simpa using inLead.symm, by simpa using rest.symm⟩
    | cons close _ =>
        rw [List.cons_append, List.cons.injEq] at rest
        rw [inLead, ← rest.1] at noClose
        simp at noClose

/-- An engine whose indents hold no brackets. -/
def Engine.Bracketless (engine : Engine W) : Prop :=
  ∀ width, '<' ∉ engine.indent width ∧ '>' ∉ engine.indent width

namespace IsInertRow

variable {engine : Engine W} {quotes others : List Markup → Prop} {row : List Char}

theorem mono (more : ∀ children, quotes children → others children)
    (inert : IsInertRow engine quotes row) : IsInertRow engine others row where
  noOpen := inert.noOpen
  prefixes before after same := by
    obtain ⟨margin, depth, children, quoted, member⟩ := inert.prefixes before after same
    exact ⟨margin, depth, children, more children quoted, member⟩

theorem of_notMem (noOpen : '<' ∉ row) (noClose : '>' ∉ row) : IsInertRow engine quotes row where
  noOpen := noOpen
  prefixes before after same := absurd (same ▸ by simp) noClose

/-- A margin without brackets may be put in front. -/
theorem append {lead : List Char} (noOpen : '<' ∉ lead) (noClose : '>' ∉ lead)
    (margin : ∀ rest, IsMargin engine rest → IsMargin engine (lead ++ rest))
    (inert : IsInertRow engine quotes row) : IsInertRow engine quotes (lead ++ row) where
  noOpen := by simp [noOpen, inert.noOpen]
  prefixes before after same := by
    obtain ⟨further, rfl, rest⟩ := exists_of_append_eq noClose same
    obtain ⟨further, quoted⟩ := inert.prefixes further after rest
    exact ⟨margin _ further, quoted⟩

theorem shown (bracketless : engine.Bracketless) {line : Line W}
    (inert : IsInertRow engine quotes line.text) : IsInertRow engine quotes (line.shown engine) := by
  rw [Line.shown]
  split
  · exact of_notMem List.not_mem_nil List.not_mem_nil
  · obtain ⟨noOpen, noClose⟩ := bracketless line.indent
    exact inert.append noOpen noClose fun _ => .indent line.indent

theorem marked (kind : ListKind) (depth : Nat) (number : Int64)
    (inert : IsInertRow engine quotes row) :
    IsInertRow engine quotes (kind.marker depth number ++ ' ' :: row) := by
  obtain ⟨noOpen, noClose, -⟩ := (IsSober.marker kind depth number).notMem
  have spaced : IsInertRow engine quotes (kind.marker depth number ++ [' '] ++ row) := by
    refine inert.append (by simpa using noOpen) (by simpa using noClose) fun rest margin => ?_
    simpa using IsMargin.marker kind depth number margin
  simpa using spaced

/-- The `>` of a quoted line starts a row of the quote, and what comes after the prefix is
inert as before. -/
theorem quoted {depth : Nat} {children : List Markup} (isQuote : quotes children)
    (inert : IsInertRow engine quotes row)
    (member : '>' :: ' ' :: row ∈ Markup.quotedRows engine depth children) :
    IsInertRow engine quotes ('>' :: ' ' :: row) where
  noOpen := by simp [inert.noOpen]
  prefixes before after same := by
    cases before with
    | nil =>
        rw [List.nil_append] at same
        exact ⟨.nil, depth, children, isQuote, same ▸ member⟩
    | cons first before =>
        obtain ⟨rfl, rest⟩ := List.cons.inj same
        have noClose : '>' ∉ [' '] := by decide
        obtain ⟨further, rfl, shown⟩ := exists_of_append_eq noClose rest
        obtain ⟨margin, inner⟩ := inert.prefixes further after shown
        exact ⟨.quoted margin, inner⟩

/-- A quoted line without text is the prefix alone. -/
theorem quotedBlank {depth : Nat} {children : List Markup} (isQuote : quotes children)
    (member : ['>'] ∈ Markup.quotedRows engine depth children) :
    IsInertRow engine quotes ['>'] where
  noOpen := by decide
  prefixes before after same := by
    obtain ⟨rfl, rest⟩ : before = [] ∧ '>' :: after = ['>'] := by
      cases before with
      | nil => exact ⟨rfl, same.symm⟩
      | cons first before => simp at same
    exact ⟨.nil, depth, children, isQuote, rest ▸ member⟩

end IsInertRow

/-- Each character of a line of a run is one of the run. -/
theorem Line.mem_of_mem_ofRun {text row : List Char}
    (member : row ∈ (ofRun text : List (Line W)).map Line.text) {character : Char}
    (inRow : character ∈ row) : character ∈ text := by
  rw [texts_ofRun] at member
  split at member
  · cases member
  · obtain ⟨line, lineMember, rfl⟩ := List.mem_map.1 member
    exact mem_of_mem_lines lineMember (mem_of_mem_trimBy inRow)

/-- Each character of a line of preformatted text is one of the text or of the fence. -/
theorem Line.mem_of_mem_fenced {text row : List Char}
    (member : row ∈ (fenced text : List (Line W)).map Line.text) {character : Char}
    (inRow : character ∈ row) : character = '\x60' ∨ character ∈ text := by
  rw [texts_fenced, List.mem_append, List.mem_cons, List.mem_singleton] at member
  rcases member with (rfl | inText) | rfl
  · exact .inl (by simpa using inRow)
  · exact .inr (mem_of_mem_trimBy (mem_of_mem_lines inText inRow))
  · exact .inl (by simpa using inRow)

namespace Markup

def RowsInert (engine : Engine W) (nodes : List Markup) (lines : List (Line W)) : Prop :=
  AreTokenless nodes → ∀ row ∈ lines.map Line.text, IsInertRow engine (Quotes nodes) row

def ItemsInert (engine : Engine W) (items : List ListItem) (lines : List (Line W)) : Prop :=
  ListItem.AreTokenless items → ∀ row ∈ lines.map Line.text,
    IsInertRow engine (fun children => ∃ item ∈ items, Quotes item.children children) row

variable {engine : Engine W} {nodes children : List Markup} {text : List Char}
  {quotes : List Markup → Prop}

theorem notMem_of_runHolds (run : RunHolds nodes text) (tokenless : AreTokenless nodes) :
    '<' ∉ text ∧ '>' ∉ text := by
  obtain ⟨plain, rfl, -⟩ := run tokenless
  exact ⟨open_notMem_escape plain, close_notMem_escape plain⟩

theorem inert_run (run : RunHolds nodes text) (tokenless : AreTokenless nodes) :
    ∀ row ∈ (Line.ofRun text : List (Line W)).map Line.text, IsInertRow engine quotes row := by
  obtain ⟨noOpen, noClose⟩ := notMem_of_runHolds run tokenless
  intro row member
  exact .of_notMem (fun inRow => noOpen (Line.mem_of_mem_ofRun member inRow))
    fun inRow => noClose (Line.mem_of_mem_ofRun member inRow)

theorem inert_fenced (run : RunHolds nodes text) (tokenless : AreTokenless nodes) :
    ∀ row ∈ (Line.fenced text : List (Line W)).map Line.text, IsInertRow engine quotes row := by
  obtain ⟨noOpen, noClose⟩ := notMem_of_runHolds run tokenless
  intro row member
  have inText {bracket : Char} (inRow : bracket ∈ row) (notFence : bracket ≠ '\x60') :
      bracket ∈ text := (Line.mem_of_mem_fenced member inRow).resolve_left notFence
  exact .of_notMem (fun inRow => noOpen (inText inRow (by decide)))
    fun inRow => noClose (inText inRow (by decide))

theorem inert_shown (bracketless : engine.Bracketless) {lines : List (Line W)}
    (inert : ∀ row ∈ lines.map Line.text, IsInertRow engine quotes row) :
    ∀ row ∈ lines.map (Line.shown engine), IsInertRow engine quotes row := by
  rw [List.forall_mem_map] at inert ⊢
  exact fun line member => (inert line member).shown bracketless

theorem rowsInert_blockquote (bracketless : engine.Bracketless) (depth : Nat)
    (rows : RowsInert engine children ((lines depth children).answer engine)) :
    RowsInert engine [.blockquote children]
      (Line.quoted (((lines depth children).answer engine).map (Line.shown engine))) := by
  intro tokenless row member
  have isQuote : Quotes [.blockquote children] children := .here List.mem_cons_self
  have inRows : row ∈ quotedRows engine depth children := member
  rw [Line.texts_quoted] at member
  obtain ⟨inner, innerMember, rfl⟩ := List.mem_map.1 member
  have inert : IsInertRow engine (Quotes [.blockquote children]) inner :=
    (inert_shown bracketless (rows (areTokenless_singleton.1 tokenless)) inner innerMember).mono
      fun _ => .quote List.mem_cons_self
  revert inRows
  split
  · exact .quotedBlank isQuote
  · exact inert.quoted isQuote

theorem inert_item (bracketless : engine.Bracketless) (kind : ListKind) (depth : Nat)
    (number : Int64) (padding indent : W) {lines : List (Line W)}
    (inert : ∀ row ∈ lines.map Line.text, IsInertRow engine quotes row) :
    ∀ row ∈ (((ItemBody.ofLines lines).answer engine).lines (kind.marker depth number)
      padding indent).map Line.text, IsInertRow engine quotes row := by
  cases lines with
  | nil =>
      obtain ⟨noOpen, noClose, -⟩ := (IsSober.marker kind depth number).notMem
      exact List.forall_mem_singleton.2 (.of_notMem noOpen noClose)
  | cons line rest =>
      obtain ⟨first, others⟩ := List.forall_mem_cons.1 inert
      rw [Line.texts_item_cons]
      exact List.forall_mem_cons.2
        ⟨(first.shown bracketless).marked kind depth number, others⟩

/-- Rendering writes no bracket but the prefix of quoted lines, as long as there are no tokens
and the engine makes indents without brackets. -/
theorem inertLaw (bracketless : engine.Bracketless)
    (noAmpersand : ∀ width, '&' ∉ engine.indent width) :
    RenderLaw engine RunHolds RunHolds (RowsInert engine) (ItemsInert engine) :=
  { holdLaw noAmpersand with
    rowsNil := fun _ => List.forall_mem_nil _
    rowsAppend := fun rows next tokenless => by
      obtain ⟨firstTokenless, secondTokenless⟩ := areTokenless_append.1 tokenless
      rw [List.map_append]
      refine List.forall_mem_append.2 ⟨fun row member => ?_, fun row member => ?_⟩
      · exact (rows firstTokenless row member).mono fun _ =>
          .mono (List.subset_append_left _ _)
      · exact (next secondTokenless row member).mono fun _ =>
          .mono (List.subset_append_right _ _)
    rowsGap := fun rows tokenless => by
      rw [List.map_append]
      refine List.forall_mem_append.2 ⟨rows tokenless, List.forall_mem_singleton.2 ?_⟩
      exact .of_notMem List.not_mem_nil List.not_mem_nil
    rowsDropFirst := fun _ rows tokenless => (List.forall_mem_cons.1 (rows tokenless)).2
    rowsDropLast := fun _ rows tokenless => by
      have all := rows tokenless
      rw [List.map_append] at all
      exact (List.forall_mem_append.1 all).1
    run := inert_run
    paragraph := fun run => inert_run (runHolds_node rfl id run)
    blockquote := fun depth _ => rowsInert_blockquote bracketless depth
    preformatted := fun run => inert_fenced (runHolds_node rfl id run)
    list := fun kind _ _ items tokenless row member =>
      (items (areTokenless_singleton.1 tokenless) row member).mono
        fun _ ⟨_, among, inside⟩ => .item List.mem_cons_self among inside
    itemsNil := fun _ => List.forall_mem_nil _
    itemsCons := fun kind depth number own padding indent _ _ _ _ rows items tokenless => by
      rw [List.map_append]
      refine List.forall_mem_append.2 ⟨?_, fun row member => ?_⟩
      · refine inert_item bracketless kind depth number padding indent fun row member => ?_
        exact (rows tokenless.1 row member).mono fun _ inside =>
          ⟨_, List.mem_cons_self, inside⟩
      · exact (items tokenless.2 row member).mono fun _ ⟨item, among, inside⟩ =>
          ⟨item, List.mem_cons_of_mem _ among, inside⟩ }

/-- Rendered markup without tokens is made of inert rows. -/
theorem exists_rows_render (bracketless : engine.Bracketless)
    (noAmpersand : ∀ width, '&' ∉ engine.indent width) (formed : AreFormed nodes)
    (tokenless : AreTokenless nodes) :
    ∃ rows, (render nodes).answer engine = unlines rows ∧
      ∀ row ∈ rows, IsInertRow engine (Quotes nodes) row := by
  obtain ⟨lines, rows, same⟩ := (inertLaw bracketless noAmpersand).rows formed
  exact ⟨_, same, inert_shown bracketless (rows tokenless)⟩

end Markup

end MessageBlocks
