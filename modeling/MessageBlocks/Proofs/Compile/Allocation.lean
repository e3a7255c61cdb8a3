import MessageBlocks.Proofs.Compile.Leeway
import MessageBlocks.Proofs.Markup.Allocation
import MessageBlocks.Proofs.Settings.Preparation
import MessageBlocks.Settings.Use

/-!
# Room for the indents of a tree

Compiling a tree renders runs of children of its elements and asks for nothing else. So the indents
that it asks for are bounded by the lists around each other in the tree. The checks of settings and
of metrics know of no such bound: they let through fallbacks of any size. Where the glyphs of an
engine are not too narrow for its letters and the tree, every indent can be made.
-/

namespace MessageBlocks

mutual

/-- How many list elements stand around each other in a node. -/
def Node.listLevels : Node → Nat
  | .text _ => 0
  | .element ⟨kind, _, children⟩ =>
      Node.allListLevels children +
        match Tag.ofName? kind with
        | some .unorderedList | some .orderedList => 1
        | _ => 0

def Node.allListLevels : List Node → Nat
  | [] => 0
  | node :: rest => max (Node.listLevels node) (Node.allListLevels rest)

end

/-- How many list elements stand around each other in a tree. -/
def Element.listLevels (root : Element) : Nat :=
  Node.listLevels (.element root)

theorem Markup.listLevels_ofElement? {tag : Tag} {attributes : Attributes}
    {children : List Markup} {found : Markup}
    (same : ofElement? tag attributes children = some found) :
    found.listLevels ≤ allListLevels children := by
  cases tag
  case lineBreak =>
      obtain rfl := Option.some.inj same
      exact Nat.zero_le _
  case bold | italic | strike | code | link | time | paragraph | blockquote | preformatted =>
      obtain rfl := Option.some.inj same
      exact le_rfl
  all_goals cases same

namespace Node

theorem listLevels_le_of_mem {node : Node} {nodes : List Node} (member : node ∈ nodes) :
    node.listLevels ≤ allListLevels nodes := by
  induction nodes with
  | nil => cases member
  | cons head rest ih =>
      rw [allListLevels]
      rcases List.mem_cons.1 member with rfl | inRest
      · exact le_max_left _ _
      · exact (ih inRest).trans (le_max_right _ _)

theorem allListLevels_mono {nodes others : List Node} (among : nodes ⊆ others) :
    allListLevels nodes ≤ allListLevels others := by
  induction nodes with
  | nil => exact Nat.zero_le _
  | cons node rest ih =>
      obtain ⟨first, following⟩ := List.cons_subset.1 among
      exact max_le (listLevels_le_of_mem first) (ih following)

mutual

/-- Markup has no more levels of lists than the node that it stands for. -/
theorem listLevels_markup? : ∀ (node : Node) (found : Markup), markup? node = some found →
    found.listLevels ≤ node.listLevels
  | .text content, found, same => by
      obtain rfl := Option.some.inj same
      exact le_rfl
  | .element ⟨kind, attributes, children⟩, found, same => by
      have below := allListLevels_markup children
      have items := allListLevels_listItems children
      rw [markup?] at same
      rw [listLevels]
      split at same
      · next tagged =>
          obtain rfl := Option.some.inj same
          rw [tagged]
          exact Nat.succ_le_succ items
      · next tagged =>
          obtain rfl := Option.some.inj same
          rw [tagged]
          exact Nat.succ_le_succ items
      · exact ((Markup.listLevels_ofElement? same).trans below).trans (Nat.le_add_right _ _)
      · cases same

theorem allListLevels_markup : ∀ nodes : List Node,
    Markup.allListLevels (markup nodes) ≤ allListLevels nodes
  | [] => le_rfl
  | node :: rest => by
      have following := allListLevels_markup rest
      rw [markup, allListLevels]
      cases same : markup? node with
      | none => exact following.trans (le_max_right _ _)
      | some found => exact max_le_max (listLevels_markup? node found same) following

theorem allListLevels_listItems : ∀ nodes : List Node,
    ListItem.allListLevels (listItems nodes) ≤ allListLevels nodes
  | [] => le_rfl
  | .text content :: rest => (allListLevels_listItems rest).trans (le_max_right _ _)
  | .element ⟨kind, attributes, children⟩ :: rest => by
      have below := allListLevels_markup children
      have following := allListLevels_listItems rest
      rw [listItems, listItem?, allListLevels, listLevels]
      split
      · exact max_le_max (below.trans (Nat.le_add_right _ _)) following
      · exact following.trans (le_max_right _ _)

end

end Node

namespace Element

theorem listLevels_of_within {root element : Element} (inside : root.Within element) :
    Node.allListLevels element.children ≤ root.listLevels := by
  have children (element : Element) :
      Node.allListLevels element.children ≤ element.listLevels := by
    obtain ⟨kind, attributes, children⟩ := element
    exact Nat.le_add_right _ _
  induction inside with
  | root => exact children root
  | @child parent child _ member ih =>
      exact (children child).trans ((Node.listLevels_le_of_mem member).trans ih)

end Element

section Compilation

variable {W : Type} [Width W] {engine : Engine W} {allowed : W → Prop} {root element : Element}

/-- Rendering any run of children of an element of the tree asks only for what is allowed. -/
def Element.RunsAsk (root : Element) (engine : Engine W) (allowed : W → Prop) : Prop :=
  ∀ element, root.Within element → ∀ nodes, nodes <:+: element.children →
    (Markup.render (Node.markup nodes)).Asks engine allowed

namespace Element

variable (runs : root.RunsAsk engine allowed)

include runs

theorem asks_mrkdwn (inside : root.Within element) : element.mrkdwn.Asks engine allowed :=
  Query.asks_map.2 (runs element inside element.children (List.infix_refl _))

theorem asks_explicitText (inside : root.Within element) :
    element.explicitText.Asks engine allowed := by
  rw [explicitText]
  split
  · trivial
  · simpa using asks_mrkdwn runs inside

theorem asks_confirmation? (inside : root.Within element) :
    element.confirmation?.Asks engine allowed := by
  rw [confirmation?]
  split
  · next child first =>
      have below := within_of_mem_childrenOf inside (List.mem_of_head? first)
      simpa [confirmation] using asks_mrkdwn runs below
  · trivial

theorem asks_labelledChoices (inside : root.Within element) (tag : Tag) (values : List String) :
    (element.labelledChoices tag values).Asks engine allowed := by
  have choices : ((element.childrenOf tag).mapM labelledChoice).Asks engine allowed := by
    refine Query.asks_mapM fun child member => ?_
    simpa [labelledChoice] using asks_mrkdwn runs (within_of_mem_childrenOf inside member)
  simpa [labelledChoices] using choices

theorem asks_control {tag : Tag} {control : Query W Control} (inside : root.Within element)
    (found : element.control? tag = some control) : control.Asks engine allowed := by
  cases tag
  case checkboxGroup =>
      obtain rfl := Option.some.inj found
      simpa [checkboxes] using asks_labelledChoices runs inside _ _
  case radioButtonGroup =>
      obtain rfl := Option.some.inj found
      simpa [radioButtons] using asks_labelledChoices runs inside _ _
  all_goals cases found
  all_goals trivial

theorem asks_component? (inside : root.Within element) :
    element.component?.Asks engine allowed := by
  rw [component?]
  split
  · trivial
  · next control interactive =>
      obtain ⟨tag, -, found⟩ := Option.bind_eq_some_iff.1 interactive
      simp [asks_control runs inside found, asks_confirmation? runs inside]

theorem asks_components {elements : List Element}
    (inside : ∀ element ∈ elements, root.Within element) :
    (components elements).Asks engine allowed := by
  induction elements with
  | nil => trivial
  | cons element rest ih =>
      obtain ⟨first, others⟩ := List.forall_mem_cons.1 inside
      simp [components, asks_component? runs first, ih others]

theorem asks_accessory? (inside : root.Within element) :
    element.accessory?.Asks engine allowed := by
  rw [accessory?]
  split
  · trivial
  · simpa using asks_component? runs inside

theorem asks_sectionText? (inside : root.Within element) :
    element.sectionText?.Asks engine allowed := by
  rw [sectionText?]
  split
  · next child first =>
      have below := within_of_mem_childrenOf inside (List.mem_of_head? first)
      simpa using asks_explicitText runs below
  · simpa using asks_mrkdwn runs inside

theorem asks_sectionContent (inside : root.Within element) :
    element.sectionContent.Asks engine allowed := by
  have fields : ((element.childrenOf .field).mapM mrkdwn).Asks engine allowed :=
    Query.asks_mapM fun child member =>
      asks_mrkdwn runs (within_of_mem_childrenOf inside member)
  rw [sectionContent]
  cases first : element.elements.find? isAccessory with
  | none => simp [asks_sectionText? runs inside, fields]
  | some child =>
      have below := inside.child (mem_elements.1 (List.mem_of_find?_eq_some first))
      simp [asks_sectionText? runs inside, fields, asks_accessory? runs below]

theorem asks_segments (inside : root.Within element) {segments : List ContextSegment}
    (areOf : ∀ segment ∈ segments, segment.IsOf element.children) :
    (ContextSegment.elements segments).Asks engine allowed := by
  induction segments with
  | nil => trivial
  | cons segment rest ih =>
      obtain ⟨first, others⟩ := List.forall_mem_cons.1 areOf
      have asks : segment.element?.Asks engine allowed := by
        cases segment with
        | image child => trivial
        | explicit child =>
            simpa [ContextSegment.element?] using asks_explicitText runs (inside.child first.1)
        | run nodes =>
            simpa [ContextSegment.element?] using runs element inside nodes first
      simp [ContextSegment.elements, asks, ih others]

theorem asks_inputContent (inside : root.Within element) :
    element.inputContent.Asks engine allowed := by
  rw [inputContent]
  cases first : element.elements.find? (·.tag?.any Tag.isInteractive) with
  | none => trivial
  | some child =>
      have below := inside.child (mem_elements.1 (List.mem_of_find?_eq_some first))
      simpa using asks_component? runs below

theorem asks_blockContent {tag : Tag} {content : Query W BlockContent}
    (inside : root.Within element) (found : element.blockContent? tag = some content) :
    content.Asks engine allowed := by
  cases tag
  case sectionBlock =>
      obtain rfl := Option.some.inj found
      exact asks_sectionContent runs inside
  case actions =>
      obtain rfl := Option.some.inj found
      have below : ∀ child ∈ element.elements, root.Within child :=
        fun child member => inside.child (mem_elements.1 member)
      exact Query.asks_map.2 (asks_components runs below)
  case context =>
      obtain rfl := Option.some.inj found
      exact Query.asks_map.2 (asks_segments runs inside fun segment member =>
        ContextSegment.isOf_segments [] [] rfl member)
  case input =>
      obtain rfl := Option.some.inj found
      exact asks_inputContent runs inside
  all_goals cases found
  all_goals trivial

theorem asks_blocksOf {elements : List Element}
    (inside : ∀ element ∈ elements, root.Within element) :
    (blocksOf elements).Asks engine allowed := by
  induction elements with
  | nil => trivial
  | cons element rest ih =>
      obtain ⟨first, others⟩ := List.forall_mem_cons.1 inside
      have asks : element.block?.Asks engine allowed := by
        rw [block?]
        split
        · trivial
        · next content shown =>
            obtain ⟨tag, -, found⟩ := Option.bind_eq_some_iff.1 shown
            simpa using asks_blockContent runs first found
      simp [blocksOf, asks, ih others]

/-- Rendering a tree asks for what rendering runs of children asks for. -/
theorem asks_render : root.render.Asks engine allowed := by
  have below : ∀ child ∈ root.elements, root.Within child :=
    fun child member => Within.root.child (mem_elements.1 member)
  have surface : root.surface.Asks engine allowed := by
    rw [surface]
    refine Query.asks_bind.2 ⟨asks_blocksOf runs below, ?_⟩
    split <;> trivial
  rw [render]
  split
  · trivial
  · simpa using surface

end Element

end Compilation

theorem Element.runsAsk {engine : Engine ℚ} {step : ℚ} (steps : engine.StepsBy step)
    (root : Element) : root.RunsAsk engine (· ≤ root.listLevels * step) := by
  intro element inside nodes run
  refine Markup.asks_render steps ?_
  exact (Node.allListLevels_markup nodes).trans
    ((Node.allListLevels_mono run.subset).trans (listLevels_of_within inside))

namespace Settings

variable {files : FileTree} {settings : Settings} {engine : Engine Float}

theorem isValid_of_loadMetrics {path : String} {metrics : Metrics Float}
    (loaded : loadMetrics files path = .ok metrics) : metrics.isValid = true := by
  rw [loadMetrics] at loaded
  split at loaded
  · cases loaded
  · exact Metrics.isValid_of_read (mapError_eq_ok_iff.1 loaded)

/-- The metrics of an engine for settings are the reference metrics or have been found valid, and
its fallback is the width of the settings. -/
theorem isValid_and_fallback_of_engine (used : settings.engine files = .ok engine) :
    engine.metrics.isValid = true ∧ engine.fallback = settings.width?.getD defaultFallback := by
  have reference : Metrics.reference.isValid = true := by decide +kernel
  rw [Settings.engine] at used
  split at used
  · obtain ⟨metrics, loaded, made⟩ := bind_eq_ok_iff.1 used
    obtain rfl := Except.ok.inj made
    exact ⟨isValid_of_loadMetrics loaded, rfl⟩
  · obtain rfl := Except.ok.inj used
    exact ⟨reference, rfl⟩

/-- The fallback of an engine for settings with nothing wrong is positive. -/
theorem fallback_pos_of_engine (clean : (settings.check files).errors = [])
    (used : settings.engine files = .ok engine) : 0 < engine.exact.fallback := by
  have positive : isPositiveWidth engine.fallback = true := by
    rw [(isValid_and_fallback_of_engine used).2]
    cases configured : settings.width? with
    | none => decide +kernel
    | some width => exact isPositiveWidth_of_check configured clean
  simp only [isPositiveWidth, Bool.and_eq_true, decide_eq_true_eq] at positive
  exact Number.exactValue_pos positive.1 positive.2

end Settings

/-- The settings and the tree do not bound the indents by themselves. But where every glyph is wide
enough for the letters and the levels of lists, no indent of the tree fails to be made. -/
theorem render_hasRoom {files : FileTree} {settings : Settings} {engine : Engine Float}
    (clean : (settings.check files).errors = []) (used : settings.engine files = .ok engine)
    (root : Element) {most : ℚ} (letters : ∀ entry ∈ engine.exact.metrics.letters, entry.2 ≤ most)
    (fallback : engine.exact.fallback ≤ most)
    (room : ∀ glyph ∈ engine.exact.glyphs,
      (root.listLevels * ((markerLimit + 1 : ℕ) * most) + Width.slack) *
        glyph.text.utf8ByteSize ≤ maxBytes * glyph.width) :
    root.render.Asks engine.exact engine.exact.HasRoomFor ∧
      root.render.answer? engine.exact = some (root.render.answer engine.exact) ∧
      ∀ cache : Cache ℚ, cache.Sound (· = engine.exact) →
        (cache.answer? engine.exact root.render).map Prod.fst =
          some (root.render.answer engine.exact) := by
  have valid := Metrics.isValid_exact (Settings.isValid_and_fallback_of_engine used).1
  have nonneg := (Settings.fallback_pos_of_engine clean used).le
  have runs := Element.runsAsk (Engine.stepsBy valid nonneg letters fallback) root
  have asks : root.render.Asks engine.exact engine.exact.HasRoomFor :=
    (Element.asks_render runs).mono fun width le => Engine.hasRoomFor_of_le valid le room
  exact ⟨asks, asks.answer?, fun cache sound => Cache.answer?_of_asks asks sound⟩

/-- Settings with a fallback that is found positive, however wide it is. -/
def wideSettings : Settings :=
  ⟨some ⟨none, some 1e300⟩, none⟩

/-- A numbered list that starts below zero, with two items. -/
def countdown : Element :=
  ⟨"Blocks", ∅, [.element ⟨"Section", ∅, [.element ⟨"ol", .ofList [("start", .number (-1))],
    [.element ⟨"li", ∅, [.text "a"]⟩, .element ⟨"li", ∅, [.text "b"]⟩]⟩]⟩]⟩

/-- With the settings that are left out there is room for the indents of the list. With the wide
fallback, in which nothing is found wrong, they cannot be made: the minus sign has that width. -/
theorem countdown_hasRoom :
    (Settings.empty.check ⟨[], []⟩).errors = [] ∧
      Settings.empty.engine ⟨[], []⟩ = .ok Engine.reference ∧
      countdown.render.answer? Engine.reference.exact =
        some (countdown.render.answer Engine.reference.exact) ∧
      countdown.validate = .ok () ∧
      (wideSettings.check ⟨[], []⟩).errors = [] ∧
      wideSettings.engine ⟨[], []⟩ = .ok ⟨.reference, 1e300⟩ ∧
      countdown.render.answer? (Engine.exact ⟨.reference, 1e300⟩) = none := by
  have clean : (Settings.empty.check ⟨[], []⟩).errors = [] := by decide +kernel
  have used : Settings.empty.engine ⟨[], []⟩ = .ok Engine.reference := rfl
  have letters : ∀ entry ∈ Engine.reference.exact.metrics.letters, entry.2 ≤ 102 := by
    decide +kernel
  have fallback : Engine.reference.exact.fallback ≤ 102 := by decide +kernel
  have room : ∀ glyph ∈ Engine.reference.exact.glyphs,
      (countdown.listLevels * ((markerLimit + 1 : ℕ) * 102) + Width.slack) *
        glyph.text.utf8ByteSize ≤ maxBytes * glyph.width := by
    decide +kernel
  have refused : (countdown.render.answer? (Engine.exact ⟨.reference, 1e300⟩)).isNone = true := by
    decide +kernel
  exact ⟨clean, used, (render_hasRoom clean used countdown letters fallback room).2.1,
    by decide +kernel, by decide +kernel, rfl, Option.isNone_iff_eq_none.1 refused⟩

end MessageBlocks
