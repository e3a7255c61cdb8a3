import MessageBlocks.Proofs.Markup.Markers
import MessageBlocks.Proofs.Markup.Place
import MessageBlocks.Proofs.Markup.RenderLaw

/-!
# Control tokens of markup

Links and dates become control tokens, and what stands in a label is joined to one
line. Whether the tokens of rendered markup are flat is said here about the markup
itself, and the law of rendering carries it to the rendered text. The escapes keep
tokens flat except in the targets of mentions, which are written as they are; line
feeds in a target or a fallback cut a token unless a label joins them; and a token
in the label of another one is never flat.
-/

namespace MessageBlocks

mutual

/-- Whether the control tokens of a node at a place are flat. No token may stand in a label
of another one, the target of a mention has to make a flat token, and other targets
and fallbacks may hold line feeds only where these are joined. -/
def Markup.KeepsTokens (place : Place) : Markup → Prop
  | .text _ | .lineBreak | .code _ => True
  | .bold children | .italic children | .strike children | .paragraph children
  | .blockquote children | .preformatted children => Markup.KeepTokens place children
  | .link target children =>
      if (target.getD "").toList = [] then Markup.KeepTokens place.inLabel children
      else
        place ≠ .token ∧
          match Markup.mention? (target.getD "").toList with
          | some mention => Text.IsFlat (place.write mention)
          | none => (place = .line → '\n' ∉ (target.getD "").toList) ∧
              Markup.KeepTokens .token children
  | .time timestamp fallback _ =>
      timestamp.isSome = true →
        place ≠ .token ∧ (place = .line → '\n' ∉ (fallback.getD "").toList)
  | .list _ items => ListItem.KeepTokens place items

def Markup.KeepTokens (place : Place) : List Markup → Prop
  | [] => True
  | node :: rest => Markup.KeepsTokens place node ∧ Markup.KeepTokens place rest

def ListItem.KeepTokens (place : Place) : List ListItem → Prop
  | [] => True
  | ⟨_, children⟩ :: rest => Markup.KeepTokens place children ∧ ListItem.KeepTokens place rest

end

open Text

namespace Markup

variable {text : List Char}

theorem keepTokens_append {place : Place} {first second : List Markup} :
    KeepTokens place (first ++ second) ↔ KeepTokens place first ∧ KeepTokens place second := by
  induction first with
  | nil => simp [KeepTokens]
  | cons node rest ih => simp [KeepTokens, ih, and_assoc]

theorem keepTokens_singleton {place : Place} {node : Markup} :
    KeepTokens place [node] ↔ node.KeepsTokens place := by
  simp [KeepTokens]

/-- A run of text is good at a place exactly if the tokens of its nodes are flat there. -/
def RunKeeps (nodes : List Markup) (text : List Char) : Prop :=
  ∀ place : Place,
    Leads place.isOpen place.isOpen (place.write text) (KeepTokens place nodes)

theorem mention?_eq_token {target mention : List Char} (found : mention? target = some mention) :
    ∃ body, mention = '<' :: body ++ ['>'] := by
  unfold mention? at found
  split at found
  · exact ⟨'!' :: target.drop 1, (Option.some.inj found).symm⟩
  · split at found
    · next rest _ =>
        have team : "<!subteam^S".toList = '<' :: "!subteam^S".toList := by decide
        refine ⟨"!subteam^S".toList ++ rest, ?_⟩
        rw [← Option.some.inj found, team, List.cons_append]
    · next rest _ => exact ⟨'@' :: 'U' :: rest, (Option.some.inj found).symm⟩
    · next rest _ => exact ⟨'@' :: 'W' :: rest, (Option.some.inj found).symm⟩
    · next rest _ => exact ⟨'#' :: 'C' :: rest, (Option.some.inj found).symm⟩
    · cases found

/-- Apart from bars and their codes a link target in a token is the escaped target. -/
theorem mem_linkTarget {character : Char} (notCoded : character ∉ ['|', '%', '7', 'C'])
    {target : List Char} : character ∈ linkTarget target ↔ character ∈ escape target := by
  simp only [List.mem_cons, List.not_mem_nil, or_false, not_or] at notCoded
  obtain ⟨notBar, notPercent, notSeven, notLetter⟩ := notCoded
  constructor
  · intro member
    obtain ⟨original, originalMember, written⟩ := List.mem_flatMap.1 member
    unfold escapeBar at written
    split at written
    · simp [notPercent, notSeven, notLetter] at written
    · obtain rfl := List.mem_singleton.1 written
      exact originalMember
  · intro member
    exact List.mem_flatMap.2 ⟨character, member, by simp [escapeBar, notBar]⟩

theorem open_notMem_linkTarget (target : List Char) : '<' ∉ linkTarget target := by
  rw [mem_linkTarget (by decide)]
  exact open_notMem_escape target

theorem close_notMem_linkTarget (target : List Char) : '>' ∉ linkTarget target := by
  rw [mem_linkTarget (by decide)]
  exact close_notMem_escape target

theorem lineFeed_mem_linkTarget {target : List Char} :
    '\n' ∈ linkTarget target ↔ '\n' ∈ target := by
  rw [mem_linkTarget (by decide), lineFeed_mem_escape]

/-- A mention is written as it is, so it is good where it happens to be flat. -/
theorem leads_mention (place : Place) {target mention : List Char}
    (found : mention? target = some mention) :
    Leads place.isOpen place.isOpen (place.write mention)
      (place ≠ .token ∧ IsFlat (place.write mention)) := by
  obtain ⟨body, rfl⟩ := mention?_eq_token found
  have settled (before : List Char) : scan false (before ++ ['>']) ≠ some true := by
    rw [scan_append]
    cases scan false before with
    | none => simp
    | some isOpen => cases isOpen <;> simp [scan]
  have written : place.write ('<' :: body ++ ['>']) = '<' :: place.write body ++ ['>'] := by
    rw [List.cons_append, Place.write_cons _ (by decide), Place.write_append]
    cases place <;> rfl
  rw [written]
  cases place with
  | line => simpa [Place.isOpen] using Leads.of_isFlat (settled ('<' :: Place.line.write body))
  | label => simpa [Place.isOpen] using Leads.of_isFlat (settled ('<' :: Place.label.write body))
  | token =>
      constructor
      · rintro ⟨outside, -⟩
        exact absurd rfl outside
      · intro _
        simp [scan, Place.isOpen]

theorem leads_linkBody (place : Place) {children : List Markup} (target : List Char)
    (run : RunKeeps children text) :
    Leads true true
      (place.write (linkTarget target ++
        if (linkLabel text).isEmpty then [] else '|' :: linkLabel text))
      ((place = .line → '\n' ∉ target) ∧ KeepTokens .token children) := by
  have targetLeads := place.leads_body (open_notMem_linkTarget target)
    (close_notMem_linkTarget target)
  rw [lineFeed_mem_linkTarget] at targetLeads
  rw [Place.write_append]
  apply targetLeads.append
  have sameControls : (if (linkLabel text).isEmpty then [] else '|' :: linkLabel text).filter
      isControl = (Place.label.write text).filter isControl := by
    rw [← Place.filter_linkLabel]
    -- an empty label goes without its bar, and the bar is no control
    split
    · next empty =>
        rw [List.isEmpty_iff.1 empty]
    · rfl
  exact (run .token).congr (place.filter_write_joined sameControls) Iff.rfl

theorem runKeeps_link (target : Option String) {children : List Markup}
    (run : RunKeeps children text) : RunKeeps [.link target children] (linkText target text) := by
  intro place
  rw [keepTokens_singleton, KeepsTokens, linkText]
  by_cases empty : (target.getD "").toList = []
  · simp only [empty, List.isEmpty_nil, if_true]
    -- without a target the label is joined and written where the link stands
    have inside := run place.inLabel
    have sameState : place.inLabel.isOpen = place.isOpen := by cases place <;> rfl
    rw [sameState] at inside
    exact inside.congr (place.filter_write_linkLabel text) Iff.rfl
  · have notEmpty : (target.getD "").toList.isEmpty = false := by simpa using empty
    simp only [empty, notEmpty, if_false, Bool.false_eq_true]
    cases found : mention? (target.getD "").toList with
    | some mention => exact leads_mention place found
    | none => exact place.leads_token (leads_linkBody place _ run)

/-- The text in the format of a time has no line feeds, since its spacing is collapsed. -/
theorem lineFeed_notMem_format {format : List Markup}
    (onlyText : ∀ node ∈ format, ∃ content, node = .text content) :
    '\n' ∉ plainAll format := by
  induction format with
  | nil => exact List.not_mem_nil
  | cons node rest ih =>
      obtain ⟨content, rfl⟩ := onlyText node List.mem_cons_self
      rw [plainAll, plain, List.mem_append, not_or]
      exact ⟨lineFeed_notMem_collapse _,
        ih fun other member => onlyText other (List.mem_cons_of_mem _ member)⟩

/-- The body of a date token, where the text shown without the date comes last. -/
theorem leads_timeBody (place : Place) (timestamp : Int64) (shown : List Char)
    {format : List Char} (oneLine : '\n' ∉ format) :
    Leads true true
      (place.write ("!date^".toList ++ Number.intText timestamp.toInt ++
        '^' :: Text.escape format ++ '|' :: Text.escape shown))
      (place = .line → '\n' ∉ shown) := by
  have start : IsSober (place.write ("!date^".toList ++ Number.intText timestamp.toInt ++
      '^' :: Text.escape format)) := by
    have date : IsSober ("!date^".toList ++ Number.intText timestamp.toInt) :=
      IsSober.append (by decide) (IsSober.intText _)
    have escaped : IsSober ('^' :: Text.escape format) :=
      IsSober.cons (by decide) (IsSober.escaped oneLine)
    obtain ⟨noOpen, noClose, noBreak⟩ := (date.append escaped).notMem
    exact place.isSober_write noOpen noClose fun _ => noBreak
  have rest := place.leads_body (open_notMem_escape shown) (close_notMem_escape shown)
  rw [lineFeed_mem_escape] at rest
  rw [Place.write_append, Place.write_cons _ (by decide)]
  have bar : Leads true true ['|'] True := .of_scan rfl
  have whole := (start.leads true).append (bar.append rest)
  simpa using whole

theorem runKeeps_time (timestamp : Option Int64) (fallback : Option String)
    {format : List Markup} (onlyText : ∀ node ∈ format, ∃ content, node = .text content) :
    RunKeeps [.time timestamp fallback format]
      (timeText timestamp fallback (plainAll format)) := by
  intro place
  rw [keepTokens_singleton, KeepsTokens]
  unfold timeText
  cases timestamp with
  | none =>
      -- without a timestamp there is no token, and what is shown is escaped
      have plain := place.leads_plain
        (open_notMem_escape ((fallback.map String.toList).getD (Text.trim (plainAll format))))
        (close_notMem_escape _)
      exact plain.congr rfl (by simp)
  | some timestamp =>
      have oneLine : '\n' ∉ (if (Text.trim (plainAll format)).isEmpty then defaultTimeFormat
          else Text.trim (plainAll format)) := by
        split
        · decide
        · exact fun member => lineFeed_notMem_format onlyText (mem_of_mem_trimBy member)
      have sameBreaks :
          '\n' ∈ (fallback.map String.toList).getD (Timestamp.readable timestamp.toInt) ↔
            '\n' ∈ (fallback.getD "").toList := by
        cases fallback with
        | some fallback => rfl
        | none =>
            have oneLine := (IsSober.readable timestamp.toInt).notMem.2.2
            simpa using oneLine
      have token := place.leads_token (leads_timeBody place timestamp
        ((fallback.map String.toList).getD (Timestamp.readable timestamp.toInt)) oneLine)
      have opened : "<!date^".toList = '<' :: "!date^".toList := by decide
      rw [sameBreaks] at token
      simpa [opened] using token

theorem runKeeps_marked {mark : Char} (noControl : isControl mark = false) {node : Markup}
    {children : List Markup} (run : RunKeeps children text)
    (same : ∀ place, node.KeepsTokens place ↔ KeepTokens place children) :
    RunKeeps [node] (marked mark text) := by
  intro place
  rw [keepTokens_singleton, same]
  exact (run place).congr (place.filter_write (filter_marked rfl noControl text)) Iff.rfl

theorem runKeeps_plain {node : Markup} (noOpen : '<' ∉ text) (noClose : '>' ∉ text)
    (keeps : ∀ place, node.KeepsTokens place) : RunKeeps [node] text := by
  intro place
  rw [keepTokens_singleton]
  exact (place.leads_plain noOpen noClose).congr rfl (iff_true_intro (keeps place))

theorem runKeeps_code (children : List Markup) :
    RunKeeps [.code children] (marked '\x60' (Text.escape (plainAll children))) := by
  have plain : RunKeeps [.code children] (Text.escape (plainAll children)) :=
    runKeeps_plain (open_notMem_escape _) (close_notMem_escape _) fun _ => trivial
  intro place
  exact (plain place).congr (place.filter_write (filter_marked rfl rfl _)) Iff.rfl

theorem runKeeps_append {first second : List Markup} {before after : List Char}
    (run : RunKeeps first before) (next : RunKeeps second after) :
    RunKeeps (first ++ second) (before ++ after) := by
  intro place
  rw [Place.write_append]
  exact ((run place).append (next place)).congr rfl keepTokens_append

def VerbatimKeeps (nodes : List Markup) (text : List Char) : Prop :=
  Leads false false text (KeepTokens .line nodes)

variable {W : Type} [Width W]

/-- Lines are flat exactly if the tokens of their nodes are. -/
def RowsKeep (nodes : List Markup) (lines : List (Line W)) : Prop :=
  (∀ line ∈ lines, IsFlat line.text) ↔ KeepTokens .line nodes

omit [Width W] in
theorem isFlat_of_isBlank {line : Line W} (blank : line.isBlank = true) : IsFlat line.text := by
  rw [List.isEmpty_iff.1 blank]
  exact isFlat_of_notMem List.not_mem_nil

/-- The lines of a run are flat exactly if the run is, since trimming takes no brackets. -/
theorem rowsKeep_run {nodes : List Markup} (run : RunKeeps nodes text) :
    RowsKeep nodes (Line.ofRun text : List (Line W)) := by
  have whole : IsFlat text ↔ KeepTokens .line nodes := (run .line).isFlat_iff
  rw [RowsKeep, ← whole, Line.ofRun]
  split
  · next spacing =>
      have noOpen : '<' ∉ text := by
        intro member
        have isSpacing := List.all_eq_true.1 spacing '<' member
        exact absurd isSpacing (by decide)
      simp [isFlat_of_notMem noOpen]
  · have trimmed (line : List Char) : IsFlat (Text.trimSpaces line) ↔ IsFlat line :=
      isFlat_congr (filter_trimBy (fun character isSpace => by rw [eq_of_beq isSpace]; rfl) line)
    rw [isFlat_lines text]
    simp [Line.flush, trimmed]

theorem isFlat_shown {engine : Engine W} (sober : ∀ width, IsSober (engine.indent width))
    (line : Line W) : IsFlat (line.shown engine) ↔ IsFlat line.text := by
  rw [Line.shown]
  split
  · next blank => exact iff_of_true (isFlat_of_notMem List.not_mem_nil) (isFlat_of_isBlank blank)
  · apply isFlat_congr
    rw [List.filter_append, (sober line.indent).filter_isControl, List.nil_append]

theorem rowsKeep_blockquote {engine : Engine W} (sober : ∀ width, IsSober (engine.indent width))
    {children : List Markup} {lines : List (Line W)} (rows : RowsKeep children lines) :
    RowsKeep [.blockquote children]
      (Line.quoted (lines.map (Line.shown engine)) : List (Line W)) := by
  have quoted (line : List Char) :
      IsFlat (if line = [] then ['>'] else '>' :: ' ' :: line) ↔ IsFlat line := by
    split
    · next empty =>
        rw [empty]
        decide
    · rw [isFlat_cons, isFlat_cons]
      simp
  rw [RowsKeep] at rows
  rw [RowsKeep, keepTokens_singleton, KeepsTokens, ← rows]
  simp [Line.quoted, Line.flush, quoted, isFlat_shown sober]

theorem rowsKeep_preformatted {children : List Markup} (verbatim : VerbatimKeeps children text) :
    RowsKeep [.preformatted children] (Line.fenced text : List (Line W)) := by
  have fence : IsFlat (Line.fence : Line W).text := by
    change IsFlat ['\x60', '\x60', '\x60']
    decide
  rw [RowsKeep, keepTokens_singleton, KeepsTokens, ← verbatim.isFlat_iff, ← isFlat_trimLineFeeds,
    isFlat_lines]
  simp [Line.fenced, Line.flush, fence, or_imp, forall_and]

def ItemsKeep (items : List ListItem) (lines : List (Line W)) : Prop :=
  (∀ line ∈ lines, IsFlat line.text) ↔ ListItem.KeepTokens .line items

/-- The lines of an item are those of its content, the first one after the marker. -/
theorem isFlat_itemLines {engine : Engine W} (sober : ∀ width, IsSober (engine.indent width))
    {marker : List Char} (soberMarker : IsSober marker) (padding content : W)
    (lines : List (Line W)) :
    (∀ line ∈ ((ItemBody.ofLines lines).answer engine).lines marker padding content,
      IsFlat line.text) ↔ ∀ line ∈ lines, IsFlat line.text := by
  have marked (text : List Char) : IsFlat (marker ++ text) ↔ IsFlat text := by
    apply isFlat_congr
    rw [List.filter_append, soberMarker.filter_isControl, List.nil_append]
  have spaced (text : List Char) : IsFlat (' ' :: text) ↔ IsFlat text := by
    rw [isFlat_cons]
    simp
  rw [← List.forall_mem_map (f := Line.text), ← List.forall_mem_map (f := Line.text)]
  cases lines with
  | nil =>
      have alone : IsFlat marker := by
        have flat := (marked []).2 (isFlat_of_notMem List.not_mem_nil)
        simpa using flat
      simpa [Line.texts_item_nil] using alone
  | cons line rest =>
      rw [Line.texts_item_cons, List.map_cons, List.forall_mem_cons, List.forall_mem_cons, marked,
        spaced, isFlat_shown sober]

/-- Rendering keeps tokens: text is flat exactly if the tokens of its markup are. -/
theorem tokenLaw {engine : Engine W} (sober : ∀ width, IsSober (engine.indent width)) :
    RenderLaw engine RunKeeps VerbatimKeeps RowsKeep ItemsKeep where
  runNil place := (Leads.of_scan (by cases place <;> rfl)).congr rfl Iff.rfl
  runAppend := runKeeps_append
  text content := runKeeps_plain (open_notMem_escape _) (close_notMem_escape _) fun _ => trivial
  bold run := runKeeps_marked rfl run fun _ => Iff.rfl
  italic run := runKeeps_marked rfl run fun _ => Iff.rfl
  strike run := runKeeps_marked rfl run fun _ => Iff.rfl
  code _ := runKeeps_code _
  link target _ _ run := runKeeps_link target run
  time timestamp fallback _ onlyText := runKeeps_time timestamp fallback onlyText
  lineBreak := runKeeps_plain (by decide) (by decide) fun _ => trivial
  verbatimNil := .of_scan rfl
  verbatimText content _ _ following :=
    ((Leads.of_scan (scan_false_of_notMem (open_notMem_escape _))).append following).congr rfl
      Iff.rfl
  verbatimBreak following := by
    have feed : Leads false false ['\n'] True := .of_scan rfl
    exact (feed.append following).congr rfl Iff.rfl
  verbatimLink target _ _ _ _ run following :=
    ((runKeeps_link target run .line).append following).congr rfl
      (and_congr keepTokens_singleton.symm Iff.rfl)
  rowsNil := by simp [RowsKeep, KeepTokens]
  rowsAppend rows next := by
    rw [RowsKeep, List.forall_mem_append, keepTokens_append]
    exact and_congr rows next
  rowsGap rows := by
    have gap : IsFlat [] := isFlat_of_notMem List.not_mem_nil
    rw [RowsKeep] at rows ⊢
    rw [List.forall_mem_append, ← rows]
    simp [gap]
  rowsDropFirst blank rows := by
    rw [RowsKeep] at rows ⊢
    simpa [isFlat_of_isBlank blank] using rows
  rowsDropLast blank rows := by
    rw [RowsKeep] at rows ⊢
    rw [List.forall_mem_append] at rows
    simpa only [List.forall_mem_singleton, isFlat_of_isBlank blank, and_true] using rows
  run := rowsKeep_run
  paragraph run := by
    rw [RowsKeep, keepTokens_singleton, KeepsTokens]
    exact rowsKeep_run run
  blockquote _ _ rows := rowsKeep_blockquote sober rows
  preformatted := rowsKeep_preformatted
  list kind _ _ items := by
    rw [RowsKeep, keepTokens_singleton, KeepsTokens]
    exact items
  itemsNil := by simp [ItemsKeep, ListItem.KeepTokens]
  itemsCons kind depth number own padding content _ _ _ _ rows items := by
    rw [ItemsKeep, List.forall_mem_append, ListItem.KeepTokens,
      isFlat_itemLines sober (IsSober.marker kind depth number)]
    exact and_congr rows items

/-- Rendered markup is flat exactly if its tokens are, for an engine whose indents hold
neither brackets nor line feeds. -/
theorem isFlat_render {engine : Engine W} (sober : ∀ width, IsSober (engine.indent width))
    {nodes : List Markup} (formed : AreFormed nodes) :
    IsFlat ((render nodes).answer engine) ↔ KeepTokens .line nodes := by
  obtain ⟨lines, rows, same⟩ := (tokenLaw sober).rows formed
  rw [RowsKeep] at rows
  rw [same, isFlat_unlines, ← rows]
  simp [isFlat_shown sober]

end Markup

end MessageBlocks
