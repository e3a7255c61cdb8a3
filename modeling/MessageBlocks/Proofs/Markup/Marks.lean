import MessageBlocks.Proofs.Layout.Indents
import MessageBlocks.Proofs.Markup.Markers
import MessageBlocks.Proofs.Markup.Visible
import MessageBlocks.Proofs.Text.Marks

/-!
# Marks of rendered markup

The renderer marks formatted text line by line, at each level of nesting and after the text
inside has been marked. Where no formatting stands directly in the same formatting and the text
has no marks of its own, what it makes is well marked.
-/

namespace MessageBlocks

open Text

namespace Markup

/-- The mark that a node puts around its own text. -/
def mark? : Markup → Option Char
  | .bold _ => some '*'
  | .italic _ => some '_'
  | .strike _ => some '~'
  | .code _ => some '\x60'
  | _ => none

/-- None of the nodes puts the mark `outer` itself, so they may stand within it. -/
def Avoids (outer : Option Char) (nodes : List Markup) : Prop :=
  ∀ node ∈ nodes, ∀ mark, node.mark? = some mark → outer ≠ some mark

end Markup

mutual

/-- Markup without tokens and fences in which no formatting stands directly in the same
formatting, at all depths. -/
def Markup.IsApart : Markup → Prop
  | .text _ | .lineBreak => True
  | .bold children => Markup.Avoids (some '*') children ∧ Markup.AreApart children
  | .italic children => Markup.Avoids (some '_') children ∧ Markup.AreApart children
  | .strike children => Markup.Avoids (some '~') children ∧ Markup.AreApart children
  | .code children => Markup.AreTokenless children
  | .paragraph children | .blockquote children => Markup.AreApart children
  | .list _ items => ListItem.AreApart items
  | .link _ _ | .time _ _ _ | .preformatted _ => False

def Markup.AreApart : List Markup → Prop
  | [] => True
  | node :: rest => Markup.IsApart node ∧ Markup.AreApart rest

def ListItem.AreApart : List ListItem → Prop
  | [] => True
  | ⟨_, children⟩ :: rest => Markup.AreApart children ∧ ListItem.AreApart rest

end

namespace Markup

theorem areApart_iff {nodes : List Markup} : AreApart nodes ↔ ∀ node ∈ nodes, node.IsApart := by
  induction nodes with
  | nil => simp [AreApart]
  | cons node rest ih => simp [AreApart, ih]

theorem areApart_append {first second : List Markup} :
    AreApart (first ++ second) ↔ AreApart first ∧ AreApart second := by
  simp only [areApart_iff, List.forall_mem_append]

theorem areApart_singleton {node : Markup} : AreApart [node] ↔ node.IsApart := by
  simp [areApart_iff]

end Markup

theorem ListItem.areApart_iff {items : List ListItem} :
    AreApart items ↔ ∀ item ∈ items, Markup.AreApart item.children := by
  induction items with
  | nil => simp [AreApart]
  | cons item rest ih =>
      obtain ⟨number, children⟩ := item
      simp [AreApart, ih]

/-- No mark stands in a text. -/
def Text.IsUnmarked (text : List Char) : Prop :=
  ∀ mark ∈ marks, mark ∉ text

namespace Text.IsUnmarked

variable {first second text : List Char}

theorem append_iff : IsUnmarked (first ++ second) ↔ IsUnmarked first ∧ IsUnmarked second := by
  simp only [IsUnmarked, List.mem_append, not_or]
  exact ⟨fun both => ⟨fun mark isMark => (both mark isMark).1, fun mark isMark =>
    (both mark isMark).2⟩, fun both mark isMark => ⟨both.1 mark isMark, both.2 mark isMark⟩⟩

theorem isMarked {outer : Option Char} (unmarked : IsUnmarked text) : IsMarked outer text :=
  .of_plain unmarked

/-- Escaping adds the letters of entities, and none of these is a mark. -/
theorem escape (unmarked : IsUnmarked text) : IsUnmarked (Text.escape text) := by
  intro mark isMark member
  rcases mem_escape member with entity | ⟨original, -⟩
  · have letters : IsUnmarked entityLetters := forall_mem_marks.2 (by decide)
    exact letters mark isMark entity
  · exact unmarked mark isMark original

/-- Marks are visible, so a text has those of any text with the same visible characters. -/
theorem of_visible (same : visible second = visible first) (unmarked : IsUnmarked first) :
    IsUnmarked second := by
  intro mark isMark member
  have shown : ∀ mark ∈ marks, isBlank mark = false := forall_mem_marks.2 (by decide)
  have inVisible : mark ∈ visible second :=
    List.mem_filter.2 ⟨member, by rw [shown mark isMark]; rfl⟩
  rw [same] at inVisible
  exact unmarked mark isMark ((visible_sublist first).subset inVisible)

end Text.IsUnmarked

namespace Markup

variable {W : Type} [Width W] {nodes children : List Markup} {text : List Char}
  {engine : Engine W}

/-- A run is well marked within any mark that its nodes do not put themselves. -/
def RunMarked (nodes : List Markup) (text : List Char) : Prop :=
  AreApart nodes → IsUnmarked (rawTexts nodes) →
    ∀ outer, Avoids outer nodes → IsMarked outer text

def RowsMarked (nodes : List Markup) (lines : List (Line W)) : Prop :=
  AreApart nodes → IsUnmarked (rawTexts nodes) → ∀ row ∈ lines.map Line.text, IsMarked none row

def ItemsMarked (items : List ListItem) (lines : List (Line W)) : Prop :=
  ListItem.AreApart items → IsUnmarked (ListItem.rawTexts items) →
    ∀ row ∈ lines.map Line.text, IsMarked none row

theorem avoids_none (nodes : List Markup) : Avoids none nodes :=
  fun _ _ _ _ => nofun

theorem runMarked_append {first second : List Markup} {before after : List Char}
    (run : RunMarked first before) (next : RunMarked second after) :
    RunMarked (first ++ second) (before ++ after) := by
  intro apart unmarked outer within
  obtain ⟨firstApart, secondApart⟩ := areApart_append.1 apart
  rw [rawTexts_append, IsUnmarked.append_iff] at unmarked
  obtain ⟨firstWithin, secondWithin⟩ := List.forall_mem_append.1 within
  exact (run firstApart unmarked.1 outer firstWithin).append
    (next secondApart unmarked.2 outer secondWithin)

/-- Formatting puts its mark around lines that are well marked within it. -/
theorem runMarked_marked {node : Markup} {mark : Char} (isMark : mark ∈ marks)
    (own : node.mark? = some mark) (same : node.rawText = rawTexts children)
    (parts : node.IsApart → Avoids (some mark) children ∧ AreApart children)
    (run : RunMarked children text) : RunMarked [node] (marked mark text) := by
  intro apart unmarked outer within
  obtain ⟨inMark, childrenApart⟩ := parts (areApart_singleton.1 apart)
  rw [rawTexts_singleton, same] at unmarked
  exact isMarked_marked isMark (within node List.mem_cons_self mark own)
    (run childrenApart unmarked (some mark) inMark)

theorem runMarked_code (children : List Markup) :
    RunMarked [.code children] (marked '\x60' (Text.escape (plainAll children))) := by
  intro apart unmarked outer within
  have tokenless : AreTokenless children := areApart_singleton.1 apart
  rw [rawTexts_singleton, rawText] at unmarked
  have plain : IsUnmarked (plainAll children) :=
    .of_visible (visible_plainAll children tokenless) unmarked
  exact isMarked_marked (by decide) (within (.code children) List.mem_cons_self '\x60' rfl)
    plain.escape.isMarked

theorem runMarked_text (content : String) :
    RunMarked [.text content] (Text.escape (Text.collapse content.toList)) := by
  intro _ unmarked outer _
  rw [rawTexts_singleton, rawText] at unmarked
  exact (unmarked.of_visible (visible_collapse _)).escape.isMarked

end Markup

namespace Line

variable {W : Type} [Width W] {engine : Engine W} {text : List Char}

theorem isMarked_ofRun (isMarked : IsMarked none text) :
    ∀ row ∈ (ofRun text : List (Line W)).map Line.text, IsMarked none row := by
  rw [texts_ofRun]
  split
  · exact List.forall_mem_nil _
  · rw [List.forall_mem_map]
    exact fun line member => (isMarked.lines line member).trimSpaces

theorem isMarked_shown (glyphs : ∀ width, IsUnmarked (engine.indent width)) {line : Line W}
    (isMarked : IsMarked none line.text) : IsMarked none (line.shown engine) := by
  rw [shown]
  split
  · exact .nil
  · exact (glyphs line.indent).isMarked.append isMarked

theorem isMarked_quoted (glyphs : ∀ width, IsUnmarked (engine.indent width))
    {lines : List (Line W)} (isMarked : ∀ row ∈ lines.map Line.text, IsMarked none row) :
    ∀ row ∈ (quoted (lines.map (shown engine)) : List (Line W)).map Line.text,
      IsMarked none row := by
  rw [List.forall_mem_map] at isMarked
  rw [texts_quoted, List.forall_mem_map, List.forall_mem_map]
  intro line member
  have content := isMarked_shown glyphs (isMarked line member)
  split
  · exact .singleton (by decide)
  · exact .char (by decide) (.char (by decide) content)

theorem isMarked_item (glyphs : ∀ width, IsUnmarked (engine.indent width)) {marker : List Char}
    (plainMarker : IsUnmarked marker) (padding content : W) {lines : List (Line W)}
    (isMarked : ∀ row ∈ lines.map Line.text, IsMarked none row) :
    ∀ row ∈ (((ItemBody.ofLines lines).answer engine).lines marker padding content).map Line.text,
      IsMarked none row := by
  cases lines with
  | nil =>
      rw [texts_item_nil]
      exact List.forall_mem_singleton.2 plainMarker.isMarked
  | cons line rest =>
      rw [List.map_cons, List.forall_mem_cons] at isMarked
      obtain ⟨first, further⟩ := isMarked
      have content := isMarked_shown glyphs first
      rw [texts_item_cons, List.forall_mem_cons]
      exact ⟨plainMarker.isMarked.append (.char (by decide) content), further⟩

end Line

namespace Markup

variable {W : Type} [Width W] {nodes : List Markup} {engine : Engine W}

/-- The step from well-marked runs to well-marked lines, for markup whose engine has no marks
among its space glyphs. Tokens and preformatted text do not occur. -/
theorem markLaw (glyphs : ∀ width, IsUnmarked (engine.indent width)) :
    RenderLaw engine RunMarked (fun _ _ => True) RowsMarked ItemsMarked where
  runNil _ _ _ _ := .nil
  runAppend := runMarked_append
  text := runMarked_text
  bold run := runMarked_marked (by decide) rfl rfl id run
  italic run := runMarked_marked (by decide) rfl rfl id run
  strike run := runMarked_marked (by decide) rfl rfl id run
  code _ := runMarked_code _
  link _ _ _ _ apart := (areApart_singleton.1 apart).elim
  time _ _ _ _ apart := (areApart_singleton.1 apart).elim
  lineBreak _ _ _ _ := .singleton (by decide)
  verbatimNil := trivial
  verbatimText _ _ _ _ := trivial
  verbatimBreak _ := trivial
  verbatimLink _ _ _ _ _ _ _ := trivial
  rowsNil _ _ := List.forall_mem_nil _
  rowsAppend rows next apart unmarked := by
    obtain ⟨firstApart, secondApart⟩ := areApart_append.1 apart
    rw [rawTexts_append, IsUnmarked.append_iff] at unmarked
    rw [List.map_append, List.forall_mem_append]
    exact ⟨rows firstApart unmarked.1, next secondApart unmarked.2⟩
  rowsGap rows apart unmarked := by
    rw [List.map_append, List.forall_mem_append]
    exact ⟨rows apart unmarked, List.forall_mem_singleton.2 .nil⟩
  rowsDropFirst _ rows apart unmarked := (List.forall_mem_cons.1 (rows apart unmarked)).2
  rowsDropLast _ rows apart unmarked := by
    have all := rows apart unmarked
    rw [List.map_append, List.forall_mem_append] at all
    exact all.1
  run run apart unmarked :=
    Line.isMarked_ofRun (run apart unmarked none (avoids_none _))
  paragraph run apart unmarked := by
    rw [rawTexts_singleton, rawText] at unmarked
    exact Line.isMarked_ofRun (run (areApart_singleton.1 apart) unmarked none (avoids_none _))
  blockquote _ _ rows apart unmarked := by
    rw [rawTexts_singleton, rawText] at unmarked
    exact Line.isMarked_quoted glyphs (rows (areApart_singleton.1 apart) unmarked)
  preformatted _ apart := (areApart_singleton.1 apart).elim
  list _ _ _ items apart unmarked := by
    rw [rawTexts_singleton, rawText] at unmarked
    exact items (areApart_singleton.1 apart) unmarked
  itemsNil _ _ := List.forall_mem_nil _
  itemsCons kind depth number _ padding content _ _ _ _ rows items apart unmarked := by
    rw [ListItem.rawTexts, IsUnmarked.append_iff] at unmarked
    have plainMarker : IsUnmarked (kind.marker depth number) := by
      have alien : ∀ mark ∈ marks, mark.isAlphanum = false ∧ mark ∉ markerSigns :=
        forall_mem_marks.2 (by decide)
      exact fun mark isMark =>
        kind.notMem_marker (alien mark isMark).1 (alien mark isMark).2 depth number
    rw [List.map_append, List.forall_mem_append]
    exact ⟨Line.isMarked_item glyphs plainMarker padding content (rows apart.1 unmarked.1),
      items apart.2 unmarked.2⟩

theorem isMarked_render (glyphs : ∀ width, IsUnmarked (engine.indent width))
    (formed : AreFormed nodes) (apart : AreApart nodes) (unmarked : IsUnmarked (rawTexts nodes)) :
    IsMarked none ((render nodes).answer engine) := by
  obtain ⟨lines, rows, same⟩ := (markLaw glyphs).rows formed
  have rowsMarked := rows apart unmarked
  rw [List.forall_mem_map] at rowsMarked
  rw [same]
  apply IsMarked.unlines
  rw [List.forall_mem_map]
  exact fun line member => Line.isMarked_shown glyphs (rowsMarked line member)

end Markup

end MessageBlocks
