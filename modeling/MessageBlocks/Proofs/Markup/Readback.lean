import MessageBlocks.Proofs.Grammar.Acceptance
import MessageBlocks.Proofs.Layout.Indents
import MessageBlocks.Proofs.Markup.Markers
import MessageBlocks.Proofs.Markup.Visible

/-!
# Reading rendered text back

Rendered markup without tokens is an escaped text. Reading it, that is undoing the escape,
gives back every visible character of the markup in order, among the marks, markers,
fences and prefixes that were added. All of these stand at the ends of lines and hold no
`&`, so the lines can be read one by one.
-/

namespace MessageBlocks

open Text

namespace Text

/-- Rows that hold a text: they are escaped, and the visible characters of the text are
read from them. -/
structure Hold (content : List Char) (rows : List (List Char)) : Prop where
  escaped : ∀ row ∈ rows, IsEscaped row
  reads : (visible content).Sublist (rows.flatMap unescape)

/-- `Prefixed before after`: the second row is the first one after a text without `&`. -/
def Prefixed (before after : List Char) : Prop :=
  ∃ lead, '&' ∉ lead ∧ after = lead ++ before

namespace Hold

variable {content : List Char} {rows : List (List Char)}

theorem nil : Hold [] [] where
  escaped := List.forall_mem_nil _
  reads := List.Sublist.refl _

theorem append {following : List Char} {others : List (List Char)} (hold : Hold content rows)
    (next : Hold following others) : Hold (content ++ following) (rows ++ others) where
  escaped := List.forall_mem_append.2 ⟨hold.escaped, next.escaped⟩
  reads := by
    rw [visible_append, List.flatMap_append]
    exact hold.reads.append next.reads

/-- A row without `&` holds nothing. -/
theorem extra {row : List Char} (plain : '&' ∉ row) : Hold [] [row] where
  escaped := List.forall_mem_singleton.2 (isEscaped_of_notMem plain)
  reads := List.nil_sublist _

/-- Nothing is read from an empty row. -/
theorem dropEmpty (before : List (List Char)) {after : List (List Char)}
    (hold : Hold content (before ++ [] :: after)) : Hold content (before ++ after) where
  escaped := by
    have escaped := hold.escaped
    simp only [List.forall_mem_append, List.forall_mem_cons] at escaped ⊢
    exact ⟨escaped.1, escaped.2.2⟩
  reads := by
    have reads := hold.reads
    rwa [List.flatMap_append, List.flatMap_cons, unescape, List.nil_append,
      ← List.flatMap_append] at reads

/-- What stands before the text of each row is read along with it. -/
theorem prefixed {others : List (List Char)} (hold : Hold content rows)
    (same : List.Forall₂ Prefixed rows others) : Hold content others := by
  suffices (∀ row ∈ others, IsEscaped row) ∧
      (rows.flatMap unescape).Sublist (others.flatMap unescape) from
    ⟨this.1, hold.reads.trans this.2⟩
  have escaped := hold.escaped
  clear hold
  induction same with
  | nil => exact ⟨List.forall_mem_nil _, List.Sublist.refl _⟩
  | @cons row _ _ _ first _ ih =>
      obtain ⟨lead, plain, rfl⟩ := first
      obtain ⟨rowEscaped, restEscaped⟩ := List.forall_mem_cons.1 escaped
      obtain ⟨othersEscaped, inOthers⟩ := ih restEscaped
      have leadEscaped := isEscaped_of_notMem plain
      refine ⟨List.forall_mem_cons.2 ⟨leadEscaped.append rowEscaped, othersEscaped⟩, ?_⟩
      rw [List.flatMap_cons, List.flatMap_cons, unescape_append leadEscaped]
      exact (List.sublist_append_right _ _).append inOthers

/-- The escaped rows of a text hold it. -/
theorem of_escape {plain : List Char} (inside : (visible content).Sublist plain)
    (same : visible rows.flatten = visible plain) : Hold content (rows.map escape) where
  escaped row member := by
    obtain ⟨row, -, rfl⟩ := List.mem_map.1 member
    exact isEscaped_escape row
  reads := by
    have read : (rows.map escape).flatMap unescape = rows.flatten := by
      simp [List.flatMap_map, unescape_escape, List.flatMap_id']
    rw [read]
    exact visible_sublist_of_eq same.symm inside

/-- The text that rows hold is read from the rows when they are joined. -/
theorem unlines (hold : Hold content rows) :
    IsEscaped (Text.unlines rows) ∧
      (visible content).Sublist (unescape (Text.unlines rows)) := by
  have reads := hold.reads
  refine ⟨.unlines hold.escaped, ?_⟩
  rw [unescape_unlines hold.escaped]
  rw [List.flatMap_def] at reads
  exact reads.trans (flatten_sublist_unlines _)

end Hold

end Text

variable {W : Type} [Width W]

namespace Line

variable {content plain : List Char} {lines : List (Line W)} {engine : Engine W}

theorem hold_ofRun (inside : (visible content).Sublist plain) :
    Hold content ((ofRun (escape plain) : List (Line W)).map text) := by
  rw [texts_ofRun]
  split
  · next spacing =>
      have unchanged : plain = escape plain := by
        have noEntity : '&' ∉ escape plain := fun member =>
          absurd (List.all_eq_true.1 spacing '&' member) (by decide)
        rw [← unescape_of_notMem noEntity, unescape_escape]
      have blank : visible plain = [] := by
        rw [visible_eq_nil_iff, unchanged, isBlankText, List.all_eq_true]
        intro character member
        have isSpacing := List.all_eq_true.1 spacing character member
        simp only [Bool.or_eq_true, beq_iff_eq] at isSpacing
        rcases isSpacing with rfl | rfl <;> rfl
      exact ⟨List.forall_mem_nil _, visible_sublist_of_eq blank inside⟩
  · have rows := Hold.of_escape inside (visible_lines_map visible_trimSpaces plain)
    rw [lines_escape, List.map_map]
    simpa [IsTrimmable.space.trimBy_escape, Function.comp_def, trimSpaces] using rows

theorem hold_fenced (inside : (visible content).Sublist plain) :
    Hold content ((fenced (escape plain) : List (Line W)).map text) := by
  have fence : Hold [] [['\x60', '\x60', '\x60']] := .extra (by decide)
  have same : visible (Text.lines (trimLineFeeds plain)).flatten = visible plain := by
    have rows := visible_lines_map (fun _ => rfl) (trimLineFeeds plain)
    rw [List.map_id'] at rows
    rw [rows, visible_trimLineFeeds]
  have rows := (fence.append (.of_escape inside same)).append fence
  rw [← lines_escape] at rows
  rw [texts_fenced, trimLineFeeds, IsTrimmable.lineFeed.trimBy_escape]
  simpa [trimLineFeeds] using rows

/-- An engine shows a line with an indent in front, and a blank line without one. -/
theorem prefixed_shown (noAmpersand : ∀ width, '&' ∉ engine.indent width) (line : Line W) :
    Prefixed line.text (line.shown engine) := by
  rw [shown]
  split
  · next blank => exact ⟨[], List.not_mem_nil, (List.isEmpty_iff.1 blank).symm⟩
  · exact ⟨_, noAmpersand line.indent, rfl⟩

theorem hold_shown (noAmpersand : ∀ width, '&' ∉ engine.indent width)
    (hold : Hold content (lines.map text)) : Hold content (lines.map (shown engine)) := by
  apply hold.prefixed
  rw [List.forall₂_map_left_iff, List.forall₂_map_right_iff, List.forall₂_same]
  exact fun line _ => prefixed_shown noAmpersand line

theorem hold_quoted (noAmpersand : ∀ width, '&' ∉ engine.indent width)
    (hold : Hold content (lines.map text)) :
    Hold content ((quoted (lines.map (shown engine)) : List (Line W)).map text) := by
  apply (hold_shown noAmpersand hold).prefixed
  rw [texts_quoted, List.forall₂_map_right_iff, List.forall₂_same]
  intro row _
  split
  · next empty => exact ⟨['>'], by decide, by rw [List.isEmpty_iff.1 empty]; rfl⟩
  · exact ⟨['>', ' '], by decide, rfl⟩

theorem hold_item (noAmpersand : ∀ width, '&' ∉ engine.indent width) {marker : List Char}
    (plainMarker : '&' ∉ marker) (padding indent : W) (hold : Hold content (lines.map text)) :
    Hold content
      ((((ItemBody.ofLines lines).answer engine).lines marker padding indent).map text) := by
  cases lines with
  | nil =>
      have both := hold.append (.extra plainMarker)
      rwa [List.append_nil] at both
  | cons line rest =>
      rw [texts_item_cons]
      apply hold.prefixed
      obtain ⟨lead, plain, shown⟩ := prefixed_shown noAmpersand line
      refine .cons ⟨marker ++ ' ' :: lead, by simp [plainMarker, plain], by simp [shown]⟩ ?_
      rw [List.forall₂_same]
      exact fun further _ => ⟨[], List.not_mem_nil, rfl⟩

end Line

namespace Markup

/-- A run is the escape of a text that holds the visible characters of its nodes. -/
def RunHolds (nodes : List Markup) (text : List Char) : Prop :=
  AreTokenless nodes →
    ∃ plain, text = escape plain ∧ (visible (rawTexts nodes)).Sublist plain

def RowsHold (nodes : List Markup) (lines : List (Line W)) : Prop :=
  AreTokenless nodes → Hold (rawTexts nodes) (lines.map Line.text)

def ItemsHold (items : List ListItem) (lines : List (Line W)) : Prop :=
  ListItem.AreTokenless items → Hold (ListItem.rawTexts items) (lines.map Line.text)

variable {nodes children : List Markup} {text : List Char}

/-- Formatting holds what its children hold. -/
theorem runHolds_node {node : Markup} (same : node.rawText = rawTexts children)
    (tokenless : node.IsTokenless → AreTokenless children) (run : RunHolds children text) :
    RunHolds [node] text := by
  intro nodeTokenless
  rw [rawTexts_singleton, same]
  exact run (tokenless (areTokenless_singleton.1 nodeTokenless))

theorem runHolds_append {first second : List Markup} {before after : List Char}
    (run : RunHolds first before) (next : RunHolds second after) :
    RunHolds (first ++ second) (before ++ after) := by
  intro tokenless
  obtain ⟨firstTokenless, secondTokenless⟩ := areTokenless_append.1 tokenless
  obtain ⟨plain, rfl, inside⟩ := run firstTokenless
  obtain ⟨further, rfl, insideNext⟩ := next secondTokenless
  refine ⟨plain ++ further, (escape_append _ _).symm, ?_⟩
  rw [rawTexts_append, visible_append]
  exact inside.append insideNext

theorem runHolds_marked {mark : Char} (plainMark : isPlain mark = true)
    (run : RunHolds nodes text) : RunHolds nodes (marked mark text) := by
  intro tokenless
  obtain ⟨plain, rfl, inside⟩ := run tokenless
  exact ⟨_, marked_escape plainMark plain, inside.trans (sublist_marked mark plain)⟩

theorem runHolds_text {content : String} {plain : List Char}
    (same : visible plain = visible content.toList) :
    RunHolds [.text content] (escape plain) := by
  intro _
  refine ⟨plain, rfl, ?_⟩
  rw [rawTexts_singleton, rawText, ← same]
  exact visible_sublist plain

theorem runHolds_code (children : List Markup) :
    RunHolds [.code children] (escape (plainAll children)) := by
  intro tokenless
  refine ⟨_, rfl, ?_⟩
  rw [rawTexts_singleton, rawText, ← visible_plainAll children (areTokenless_singleton.1 tokenless)]
  exact visible_sublist _

theorem runHolds_break : RunHolds [.lineBreak] ['\n'] :=
  fun _ => ⟨['\n'], rfl, List.nil_sublist _⟩

theorem runHolds_nil : RunHolds [] [] :=
  fun _ => ⟨[], rfl, List.Sublist.refl _⟩

/-- Rendering keeps visible characters, as long as there are no tokens and the engine makes
indents without `&`. -/
theorem holdLaw {engine : Engine W} (noAmpersand : ∀ width, '&' ∉ engine.indent width) :
    RenderLaw engine RunHolds RunHolds RowsHold ItemsHold where
  runNil := runHolds_nil
  runAppend := runHolds_append
  text content := runHolds_text (visible_collapse _)
  bold run := runHolds_marked rfl (runHolds_node rfl id run)
  italic run := runHolds_marked rfl (runHolds_node rfl id run)
  strike run := runHolds_marked rfl (runHolds_node rfl id run)
  code _ := runHolds_marked rfl (runHolds_code _)
  link _ _ _ _ tokenless := (areTokenless_singleton.1 tokenless).elim
  time _ _ _ _ tokenless := (areTokenless_singleton.1 tokenless).elim
  lineBreak := runHolds_break
  verbatimNil := runHolds_nil
  verbatimText content _ _ following := runHolds_append (runHolds_text rfl) following
  verbatimBreak following := runHolds_append runHolds_break following
  verbatimLink _ _ _ _ _ _ _ tokenless := tokenless.1.elim
  rowsNil _ := .nil
  rowsAppend rows next tokenless := by
    obtain ⟨firstTokenless, secondTokenless⟩ := areTokenless_append.1 tokenless
    rw [rawTexts_append, List.map_append]
    exact (rows firstTokenless).append (next secondTokenless)
  rowsGap rows tokenless := by
    have gapped := (rows tokenless).append (.extra List.not_mem_nil)
    rw [List.append_nil] at gapped
    rwa [List.map_append]
  rowsDropFirst blank rows tokenless := by
    have all := rows tokenless
    rw [List.map_cons, List.isEmpty_iff.1 blank] at all
    exact all.dropEmpty []
  rowsDropLast blank rows tokenless := by
    have all := rows tokenless
    rw [List.map_append, List.map_singleton, List.isEmpty_iff.1 blank] at all
    have rest := all.dropEmpty _
    rwa [List.append_nil] at rest
  run run tokenless := by
    obtain ⟨plain, rfl, inside⟩ := run tokenless
    exact Line.hold_ofRun inside
  paragraph run tokenless := by
    obtain ⟨plain, rfl, inside⟩ := runHolds_node rfl id run tokenless
    exact Line.hold_ofRun inside
  blockquote _ _ rows tokenless := by
    rw [rawTexts_singleton, rawText]
    exact Line.hold_quoted noAmpersand (rows (areTokenless_singleton.1 tokenless))
  preformatted run tokenless := by
    obtain ⟨plain, rfl, inside⟩ := runHolds_node rfl id run tokenless
    exact Line.hold_fenced inside
  list _ _ _ items tokenless := by
    rw [rawTexts_singleton, rawText]
    exact items (areTokenless_singleton.1 tokenless)
  itemsNil _ := .nil
  itemsCons kind depth number own padding indent _ _ _ _ rows items tokenless := by
    have noMarker : '&' ∉ kind.marker depth number :=
      kind.notMem_marker (by decide) (by decide) depth number
    rw [List.map_append]
    exact (Line.hold_item noAmpersand noMarker padding indent (rows tokenless.1)).append
      (items tokenless.2)

variable {engine : Engine W}

/-- Rendered markup without tokens is escaped, and its visible characters are read from it. -/
theorem render_holds (noAmpersand : ∀ width, '&' ∉ engine.indent width)
    (formed : AreFormed nodes) (tokenless : AreTokenless nodes) :
    IsEscaped ((render nodes).answer engine) ∧
      (visible (rawTexts nodes)).Sublist (unescape ((render nodes).answer engine)) := by
  obtain ⟨lines, rows, same⟩ := (holdLaw noAmpersand).rows formed
  rw [same]
  exact (Line.hold_shown noAmpersand (rows tokenless)).unlines

end Markup

/-- Where all markup below an element of an accepted tree is plain, the visible characters
of its text are found in order in its rendered text, once this is read, and in its plain
text. Lists are left out, since the markup of a list itself has items instead of children. -/
theorem rendered_texts_keep_visible {root element : Element} (engine : Engine W)
    (glyphs : ∀ entry ∈ engine.metrics.spaces, '&' ∉ entry.1.toList)
    (accepted : root.validate = .ok ()) (inside : root.Within element)
    (notList : element.tag? ≠ some .unorderedList ∧ element.tag? ≠ some .orderedList)
    (plain : ∀ inner, Node.Below element.children inner →
      ∃ tag ∈ Grammar.plainMarkup, inner.tag? = some tag) :
    (visible (Node.rawTexts element.children)).Sublist
        (unescape ((Markup.render (Node.markup element.children)).answer engine)) ∧
      (visible (Node.rawTexts element.children)).Sublist
        (Markup.plainText (Node.markup element.children)) := by
  have grammatical := Grammatical.of_validate accepted
  have formed := grammatical.areFormed_run inside List.infix_rfl
  have tokenless : Markup.AreTokenless (Node.markup element.children) := by
    apply Node.areTokenless_markup
    intro inner below
    obtain ⟨tag, among, tagged⟩ := plain inner below
    rw [tagged]
    constructor <;> rintro same <;> obtain rfl := Option.some.inj same <;>
      exact absurd among (by decide)
  rw [(grammatical.visible_rawTexts inside plain).1 notList]
  constructor
  · exact (Markup.render_holds (Engine.notMem_indent glyphs) formed tokenless).2
  · rw [← Markup.visible_plainAll _ tokenless, ← Markup.visible_tidy]
    exact visible_sublist _

/-- A message with a list whose item holds an ampersand. -/
def listMessage : Element :=
  (Element.ofKind "Section").append
    [.text "a < b", .element ((Element.ofKind "ul").append
      [.element ((Element.ofKind "li").append [.text "c & d"])])]

/-- No visible character of the message is lost. -/
theorem listMessage_keeps_visible :
    ((Element.ofKind "Blocks").append [.element listMessage]).validate = .ok () ∧
      "a<bc&d".toList.Sublist
        (unescape ((Markup.render (Node.markup listMessage.children)).answer
          Engine.reference)) ∧
      "a<bc&d".toList.Sublist (Markup.plainText (Node.markup listMessage.children)) := by
  have accepted :
      ((Element.ofKind "Blocks").append [.element listMessage]).validate = .ok () := by rfl
  have glyphs : ∀ entry ∈ Engine.reference.metrics.spaces, '&' ∉ entry.1.toList :=
    fun _ member ampersand =>
      absurd (Metrics.code_of_mem_reference member ampersand) (by decide)
  have plain : ∀ inner, Node.Below listMessage.children inner →
      ∃ tag ∈ Grammar.plainMarkup, inner.tag? = some tag := by
    rintro inner ⟨list, member, inList⟩
    have isList := List.mem_singleton.1 ((List.mem_cons.1 member).resolve_left nofun)
    obtain rfl := Node.element.inj isList
    rcases Element.within_iff.1 inList with rfl | ⟨item, member, inItem⟩
    · exact ⟨.unorderedList, by decide, rfl⟩
    · obtain rfl := Node.element.inj (List.mem_singleton.1 member)
      rcases Element.within_iff.1 inItem with rfl | ⟨_, member, _⟩
      · exact ⟨.listItem, by decide, rfl⟩
      · cases List.mem_singleton.1 member
  exact ⟨accepted, rendered_texts_keep_visible Engine.reference glyphs accepted
    (Element.Within.root.child List.mem_cons_self) (by decide) plain⟩

end MessageBlocks
