import MessageBlocks.Proofs.Markup.Leaves
import MessageBlocks.Proofs.Markup.Marks
import MessageBlocks.Proofs.Markup.Quotes

/-!
# Spacing of rendered markup

A run has the gaps of its plain text: the marks around formatting change none, since they stand
right next to ink, and neither does the escape. And where there are no tokens and no preformatted
text, no other spacing than spaces and line feeds is left in a rendered text.
-/

namespace MessageBlocks

open Text

mutual

theorem Markup.IsApart.isTokenless : ∀ node : Markup, node.IsApart → node.IsTokenless
  | .text _, _ | .lineBreak, _ => trivial
  | .bold children, apart | .italic children, apart | .strike children, apart =>
      Markup.AreApart.areTokenless children apart.2
  | .code _, tokenless => tokenless
  | .paragraph children, apart | .blockquote children, apart =>
      Markup.AreApart.areTokenless children apart
  | .list _ items, apart => ListItem.AreApart.areTokenless items apart

theorem Markup.AreApart.areTokenless : ∀ nodes : List Markup, Markup.AreApart nodes →
    Markup.AreTokenless nodes
  | [], _ => trivial
  | node :: rest, ⟨apart, restApart⟩ =>
      ⟨Markup.IsApart.isTokenless node apart, Markup.AreApart.areTokenless rest restApart⟩

theorem ListItem.AreApart.areTokenless : ∀ items : List ListItem, ListItem.AreApart items →
    ListItem.AreTokenless items
  | [], _ => trivial
  | ⟨_, children⟩ :: rest, ⟨apart, restApart⟩ =>
      ⟨Markup.AreApart.areTokenless children apart,
        ListItem.AreApart.areTokenless rest restApart⟩

end

namespace Text.IsCollapsed

theorem write (leaves : List Leaf) : IsCollapsed (Leaf.write leaves) := by
  intro character member
  obtain ⟨leaf, -, inLeaf⟩ := List.mem_flatMap.1 member
  cases leaf with
  | text content => exact collapse content character inLeaf
  | lineEnd =>
      rw [List.mem_singleton.1 inLeaf]
      nofun

theorem plainAll {nodes : List Markup} (tokenless : Markup.AreTokenless nodes) :
    IsCollapsed (Markup.plainAll nodes) := by
  rw [← Markup.write_allLeaves nodes tokenless]
  exact write _

end Text.IsCollapsed

theorem ListKind.isSpacing_of_mem_marker (kind : ListKind) (depth : Nat) (number : Int64) :
    ∀ character ∈ kind.marker depth number, isSpacing character = false := by
  intro character member
  by_contra spacing
  have alien : character.isAlphanum = false ∧ character ∉ markerSigns := by
    rcases eq_of_isSpacing (Bool.not_eq_false _ ▸ spacing) with rfl | rfl | rfl | rfl | rfl <;>
      decide
  exact kind.notMem_marker alien.1 alien.2 depth number member

theorem ListKind.isInk_of_mem_marker (kind : ListKind) (depth : Nat) (number : Int64) :
    ∀ character ∈ kind.marker depth number, isInk character = true :=
  fun character member =>
    isInk_of_notSpacing (kind.isSpacing_of_mem_marker depth number character member)

/-- An engine whose indents hold no spacing that collapses. -/
def Engine.Spaceless {W : Type} [Width W] (engine : Engine W) : Prop :=
  ∀ width, ∀ glyph ∈ engine.indent width, isSpacing glyph = false

theorem Engine.Spaceless.isInk {W : Type} [Width W] {engine : Engine W}
    (spaceless : engine.Spaceless) (width : W) :
    ∀ glyph ∈ engine.indent width, isInk glyph = true :=
  fun glyph member => isInk_of_notSpacing (spaceless width glyph member)

namespace Markup

variable {W : Type} [Width W] {engine : Engine W} {nodes children : List Markup} {text : List Char}

theorem plainAll_append (first second : List Markup) :
    plainAll (first ++ second) = plainAll first ++ plainAll second := by
  induction first with
  | nil => rfl
  | cons node rest ih => rw [List.cons_append, plainAll, plainAll, ih, List.append_assoc]

theorem plainAll_singleton (node : Markup) : plainAll [node] = node.plain :=
  List.append_nil _

/-- A run has the gaps of its plain text. -/
def RunSpaced (nodes : List Markup) (text : List Char) : Prop :=
  AreApart nodes → SameGaps text (plainAll nodes) ∧ IsCollapsed text

def RowsCollapsed (nodes : List Markup) (lines : List (Line W)) : Prop :=
  AreApart nodes → ∀ row ∈ lines.map Line.text, IsCollapsed row

def ItemsCollapsed (items : List ListItem) (lines : List (Line W)) : Prop :=
  ListItem.AreApart items → ∀ row ∈ lines.map Line.text, IsCollapsed row

theorem runSpaced_append {first second : List Markup} {before after : List Char}
    (run : RunSpaced first before) (next : RunSpaced second after) :
    RunSpaced (first ++ second) (before ++ after) := by
  intro apart
  obtain ⟨firstApart, secondApart⟩ := areApart_append.1 apart
  obtain ⟨same, collapsed⟩ := run firstApart
  obtain ⟨sameNext, collapsedNext⟩ := next secondApart
  rw [plainAll_append]
  exact ⟨same.append sameNext, IsCollapsed.append_iff.2 ⟨collapsed, collapsedNext⟩⟩

/-- Marks around a run leave its gaps as they are. -/
theorem runSpaced_marked {node : Markup} {mark : Char} (notSpacing : isSpacing mark = false)
    (same : node.plain = plainAll children) (parts : node.IsApart → AreApart children)
    (run : RunSpaced children text) : RunSpaced [node] (marked mark text) := by
  intro apart
  obtain ⟨sameText, collapsed⟩ := run (parts (areApart_singleton.1 apart))
  rw [plainAll_singleton, same]
  exact ⟨(sameGaps_marked (isInk_of_notSpacing notSpacing) text).trans sameText,
    collapsed.marked notSpacing⟩

theorem isCollapsed_ofRun (collapsed : IsCollapsed text) :
    ∀ row ∈ (Line.ofRun text : List (Line W)).map Line.text, IsCollapsed row :=
  fun _ member => collapsed.of_subset fun _ inRow => Line.mem_of_mem_ofRun member inRow

theorem isCollapsed_shown (spaceless : engine.Spaceless)
    {line : Line W} (collapsed : IsCollapsed line.text) : IsCollapsed (line.shown engine) := by
  rw [Line.shown]
  split
  · exact List.forall_mem_nil _
  · exact IsCollapsed.append_iff.2
      ⟨fun glyph member _ => spaceless line.indent glyph member, collapsed⟩

/-- The step from runs to lines, for markup without tokens and fences. -/
theorem gapLaw (spaceless : engine.Spaceless) :
    RenderLaw engine RunSpaced (fun _ _ => True) RowsCollapsed ItemsCollapsed where
  runNil _ := ⟨.refl [], List.forall_mem_nil _⟩
  runAppend := runSpaced_append
  text content _ := by
    rw [plainAll_singleton]
    exact ⟨.escape _, (IsCollapsed.collapse _).escape⟩
  bold run := runSpaced_marked (by decide) rfl And.right run
  italic run := runSpaced_marked (by decide) rfl And.right run
  strike run := runSpaced_marked (by decide) rfl And.right run
  code {children} _ apart := by
    have tokenless : AreTokenless children := areApart_singleton.1 apart
    rw [plainAll_singleton]
    exact ⟨(sameGaps_marked (by decide) _).trans (.escape _),
      (IsCollapsed.plainAll tokenless).escape.marked (by decide)⟩
  link _ _ _ _ apart := (areApart_singleton.1 apart).elim
  time _ _ _ _ apart := (areApart_singleton.1 apart).elim
  lineBreak _ := ⟨.refl _, by decide⟩
  verbatimNil := trivial
  verbatimText _ _ _ _ := trivial
  verbatimBreak _ := trivial
  verbatimLink _ _ _ _ _ _ _ := trivial
  rowsNil _ := List.forall_mem_nil _
  rowsAppend rows next apart := by
    obtain ⟨firstApart, secondApart⟩ := areApart_append.1 apart
    rw [List.map_append, List.forall_mem_append]
    exact ⟨rows firstApart, next secondApart⟩
  rowsGap rows apart := by
    rw [List.map_append, List.forall_mem_append]
    exact ⟨rows apart, List.forall_mem_singleton.2 (List.forall_mem_nil _)⟩
  rowsDropFirst _ rows apart := (List.forall_mem_cons.1 (rows apart)).2
  rowsDropLast _ rows apart := by
    have all := rows apart
    rw [List.map_append, List.forall_mem_append] at all
    exact all.1
  run run apart := isCollapsed_ofRun (run apart).2
  paragraph run apart := isCollapsed_ofRun (run (areApart_singleton.1 apart)).2
  blockquote _ _ rows apart := by
    have collapsed := rows (areApart_singleton.1 apart)
    rw [List.forall_mem_map] at collapsed
    rw [Line.texts_quoted, List.forall_mem_map, List.forall_mem_map]
    intro line member
    have content := isCollapsed_shown spaceless (collapsed line member)
    split
    · decide
    · have sign : IsCollapsed ['>', ' '] := by decide
      exact IsCollapsed.append_iff.2 ⟨sign, content⟩
  preformatted _ apart := (areApart_singleton.1 apart).elim
  list _ _ _ items apart := items (areApart_singleton.1 apart)
  itemsNil _ := List.forall_mem_nil _
  itemsCons kind depth number _ padding content _ lines _ _ rows items apart := by
    have collapsed := rows apart.1
    have marker : IsCollapsed (kind.marker depth number) :=
      fun character member _ => kind.isSpacing_of_mem_marker depth number character member
    rw [List.map_append, List.forall_mem_append]
    refine ⟨?_, items apart.2⟩
    cases lines with
    | nil => exact List.forall_mem_singleton.2 marker
    | cons line rest =>
        obtain ⟨first, others⟩ := List.forall_mem_cons.1 collapsed
        have space : IsCollapsed [' '] := by decide
        have content := IsCollapsed.append_iff.2 ⟨space, isCollapsed_shown spaceless first⟩
        rw [Line.texts_item_cons]
        exact List.forall_mem_cons.2 ⟨IsCollapsed.append_iff.2 ⟨marker, content⟩, others⟩

end Markup

end MessageBlocks
