import MessageBlocks.Compile.Render
import MessageBlocks.Layout.Reference
import MessageBlocks.Proofs.Grammar.Tags
import MessageBlocks.Proofs.Json.Parts
import MessageBlocks.Proofs.Layout.Allocation
import MessageBlocks.Proofs.Layout.Stops

/-!
# Endings of a render

A render of JSON text through a cache ends in one of four ways: the text is no tree, the tree breaks
the grammar, it is compiled, or an indent in it fits into no text and the render has no result. Only
in the last two cases does the cache change. The payload of a compiled tree has one block for each
child element of the root, in their order. Where the engine has room for all indents there are
three ways only.

The last way is a fault: the checks of settings and of metrics let through widths of any size, and
no tree that is accepted should be left without a result.
-/

namespace MessageBlocks

variable {W : Type} [Width W]

theorem Element.render_of_error {root : Element} {breach : Violation}
    (broken : root.validate = .error breach) :
    (root.render : Query W Rendering) = pure
      ⟨.error (.violation breach), [.rejected breach.message breach.location.text]⟩ := by
  rw [render, broken]

theorem Element.render_of_ok {root : Element} (accepted : root.validate = .ok ()) :
    (root.render : Query W Rendering) =
      (fun surface => ⟨.ok surface,
        [.validated root.kind, .emitted root.kind surface.blocks.length]⟩) <$> root.surface := by
  rw [render, accepted]
  rfl

theorem renderText_of_read {text : String} {root : Element}
    (read : Element.read? text = some root) :
    (renderText text : Query W Rendering) = root.render := by
  rw [renderText, read]

/-- A layout element compiles to a block with its content, whatever that is. -/
theorem Element.block?_of_layout {element : Element} {tag : Tag} (tagged : element.tag? = some tag)
    (layout : tag ∈ Grammar.layoutBlocks) :
    ∃ content : Query W BlockContent,
      element.block? = (fun content => some ⟨content, element.blockId?⟩) <$> content := by
  obtain ⟨content, compiles⟩ :
      ∃ content : Query W BlockContent, element.blockContent? tag = some content := by
    simp only [Grammar.layoutBlocks, List.mem_cons, List.not_mem_nil, or_false] at layout
    rcases layout with rfl | rfl | rfl | rfl | rfl | rfl | rfl | rfl <;> exact ⟨_, rfl⟩
  have found : element.tag?.bind element.blockContent? = some content := by
    rw [tagged, Option.bind_some, compiles]
  rw [block?, found]
  exact ⟨content, rfl⟩

variable [Profile W] [DecidableEq W]

/-- The blocks of a payload: its items, or else those of its member `blocks`. -/
def Json.payloadBlocks (payload : Json) : List Json :=
  match payload with
  | .array items => items
  | view => ((view.member? "blocks").bind Json.items?).getD []

theorem Json.payloadBlocks_ofFields {fields : List (String × Option Json)} {items : List Json}
    (found : field? "blocks" fields = some (.array items)) :
    (ofFields fields).payloadBlocks = items := by
  have member : (ofFields fields).member? "blocks" = some (.array items) := by
    rw [member?_ofFields, found]
  rw [ofFields, ofMembers] at member ⊢
  simp only [payloadBlocks, member, Option.bind_some, items?, Option.getD_some]

theorem Surface.payloadBlocks_toJson (surface : Surface) :
    surface.toJson.payloadBlocks = surface.blocks.map Block.toJson := by
  cases surface with
  | message blocks => rfl
  | modal title blocks submit close clearOnClose notifyOnClose data =>
      exact Json.payloadBlocks_ofFields (by simp [Json.field?, ViewData.fields, Surface.blocks])
  | home blocks data =>
      exact Json.payloadBlocks_ofFields (by simp [Json.field?, ViewData.fields, Surface.blocks])

/-- `Compiled engine before elements blocks after`: the elements compile one after the other,
each to the block at its place. -/
inductive Compiled (engine : Engine W) :
    Cache W → List Element → List Block → Cache W → Prop where
  | nil (cache : Cache W) : Compiled engine cache [] [] cache
  | cons {before middle after : Cache W} {element : Element} {rest : List Element} {block : Block}
      {blocks : List Block}
      (first : before.answer? engine element.block? = some (some block, middle))
      (following : Compiled engine middle rest blocks after) :
      Compiled engine before (element :: rest) (block :: blocks) after

theorem Compiled.length_eq {engine : Engine W} {before after : Cache W} {elements : List Element}
    {blocks : List Block} (compiled : Compiled engine before elements blocks after) :
    blocks.length = elements.length := by
  induction compiled with
  | nil cache => rfl
  | cons first following ih => rw [List.length_cons, List.length_cons, ih]

/-- The events of a render, each with its severity. -/
def Rendering.log (rendering : Rendering) : List (Severity × RenderEvent) :=
  rendering.events.map fun event => (event.severity, event)

/-- The text is no tree. -/
structure EndsMalformed (text : String) (before : Cache W) (rendering : Rendering)
    (after : Cache W) : Prop where
  unread : Element.read? text = none
  result : rendering.result = .error .malformed
  log : rendering.log = []
  untouched : after = before

/-- The tree breaks the grammar, and its first violation is the error and the one event. -/
structure EndsRejected (text : String) (before : Cache W) (root : Element) (breach : Violation)
    (rendering : Rendering) (after : Cache W) : Prop where
  read : Element.read? text = some root
  broken : root.validate = .error breach
  result : rendering.result = .error (.violation breach)
  log : rendering.log = [(.warn, .rejected breach.message breach.location.text)]
  untouched : after = before

/-- The tree is accepted, and its payload has a block for each child element of the root. -/
structure EndsRendered (engine : Engine W) (text : String) (before : Cache W) (root : Element)
    (surface : Surface) (rendering : Rendering) (after : Cache W) : Prop where
  read : Element.read? text = some root
  accepted : root.validate = .ok ()
  result : rendering.result = .ok surface
  log : rendering.log = [(.info, .validated root.kind),
    (.info, .emitted root.kind surface.toJson.payloadBlocks.length)]
  count : surface.toJson.payloadBlocks.length = root.elements.length
  blocks : ∃ blocks, Compiled engine before root.elements blocks after ∧
    surface.toJson.payloadBlocks = blocks.map Block.toJson

/-- The tree is accepted, but at a width its render stops: the cache that it has reached by then has
no indent of that width, and the copies of a glyph in it fit into no text. -/
structure EndsStopped (engine : Engine W) (text : String) (before : Cache W) (root : Element)
    (width : W) (reached : Cache W) : Prop where
  read : Element.read? text = some root
  accepted : root.validate = .ok ()
  stops : Cache.StopsAt engine (renderText text : Query W Rendering) before width reached
  grown : before.GrowsUnder engine reached
  absent : reached.indent? engine width = none
  tooMany : ∃ part ∈ engine.composition width,
    maxBytes < min part.2 maxCount * part.1.text.utf8ByteSize

/-- How a render of JSON text can end. -/
inductive Ending (W : Type) [Profile W] where
  | malformed
  | rejected (root : Element) (breach : Violation)
  | rendered (root : Element) (surface : Surface)
  | stopped (root : Element) (width : W) (reached : Cache W)

namespace Ending

/-- The tree that was read, if there is one. -/
def root? : Ending W → Option Element
  | malformed => none
  | rejected root _ | rendered root _ | stopped root _ _ => some root

/-- What the checker has said of the tree, if there is one. -/
def verdict : Ending W → Except Violation Unit
  | rejected _ breach => .error breach
  | _ => .ok ()

/-- Whether a render with an outcome, which may be missing, has ended in a way. -/
def Holds (engine : Engine W) (text : String) (before : Cache W)
    (outcome : Option (Rendering × Cache W)) : Ending W → Prop
  | malformed => ∃ rendering after, outcome = some (rendering, after) ∧
      EndsMalformed text before rendering after
  | rejected root breach => ∃ rendering after, outcome = some (rendering, after) ∧
      EndsRejected text before root breach rendering after
  | rendered root surface => ∃ rendering after, outcome = some (rendering, after) ∧
      EndsRendered engine text before root surface rendering after
  | stopped root width reached => outcome = none ∧
      EndsStopped engine text before root width reached

end Ending

/-- Where layout elements compile at all, they do so to as many blocks, one after the other. -/
theorem Element.compiled_of_answer? {elements : List Element}
    (layout : ∀ element ∈ elements, ∃ tag ∈ Grammar.layoutBlocks, element.tag? = some tag)
    {engine : Engine W} {before after : Cache W} {blocks : List Block}
    (answered : before.answer? engine (blocksOf elements) = some (blocks, after)) :
    Compiled engine before elements blocks after := by
  induction elements generalizing before blocks with
  | nil =>
      cases answered
      exact .nil _
  | cons element rest ih =>
      obtain ⟨tag, member, tagged⟩ := layout element List.mem_cons_self
      obtain ⟨content, compiles⟩ := element.block?_of_layout (W := W) tagged member
      rw [blocksOf, Cache.answer?_bind, compiles, Cache.answer?_map] at answered
      obtain ⟨found, first, others⟩ := Option.bind_eq_some_iff.1 answered
      obtain ⟨⟨value, middle⟩, made, rfl⟩ := Option.map_eq_some_iff.1 first
      rw [Cache.answer?_bind] at others
      obtain ⟨⟨following, last⟩, later, whole⟩ := Option.bind_eq_some_iff.1 others
      cases whole
      refine .cons ?_ (ih (fun other inRest => layout other (List.mem_cons_of_mem _ inRest)) later)
      rw [compiles, Cache.answer?_map, made, Option.map_some]

theorem Grammatical.childLayout {root : Element} (grammatical : Grammatical root) :
    ∀ child ∈ root.elements, ∃ tag ∈ Grammar.layoutBlocks, child.tag? = some tag := by
  intro child member
  obtain ⟨tag, surface, tagged⟩ := grammatical.rootTag
  have layout : ∀ tag ∈ Grammar.surfaces, ∀ child ∈ tag.rule.children,
      child ∈ Grammar.layoutBlocks := by decide
  obtain ⟨childTag, allowed, childTagged⟩ :=
    (grammatical.obeys_of_tag .root tagged).childTag member
  exact ⟨childTag, layout tag surface childTag allowed, childTagged⟩

/-- The surface of a root is made of the blocks of its child elements, and nothing but these
asks the engine. -/
theorem Element.answer?_blocksOf {root : Element} {engine : Engine W} {before after : Cache W}
    {surface : Surface} (answered : before.answer? engine root.surface = some (surface, after)) :
    before.answer? engine (blocksOf root.elements) = some (surface.blocks, after) := by
  rw [Element.surface, blocks, Cache.answer?_bind] at answered
  obtain ⟨⟨found, last⟩, made, whole⟩ := Option.bind_eq_some_iff.1 answered
  rw [made]
  split at whole <;> (cases whole; rfl)

/-- A render of an accepted tree that has a result compiles the child elements in turn. -/
theorem Element.endsRendered {text : String} {root : Element}
    (read : Element.read? text = some root) (accepted : root.validate = .ok ())
    {engine : Engine W} {before after : Cache W} {rendering : Rendering}
    (answered : before.answer? engine (renderText text) = some (rendering, after)) :
    ∃ surface, EndsRendered engine text before root surface rendering after := by
  rw [renderText_of_read read, render_of_ok accepted, Cache.answer?_map] at answered
  obtain ⟨⟨surface, last⟩, made, whole⟩ := Option.map_eq_some_iff.1 answered
  cases whole
  have compiled := compiled_of_answer? (Grammatical.of_validate accepted).childLayout
    (answer?_blocksOf made)
  have forms := surface.payloadBlocks_toJson
  have count : surface.toJson.payloadBlocks.length = root.elements.length := by
    rw [forms, List.length_map, compiled.length_eq]
  refine ⟨surface, read, accepted, rfl, ?_, count, _, compiled, forms⟩
  rw [forms, List.length_map]
  rfl

/-- A render of an accepted tree that has no result stops at an indent. -/
theorem Element.endsStopped {text : String} {root : Element}
    (read : Element.read? text = some root) (accepted : root.validate = .ok ())
    {engine : Engine W} {before : Cache W}
    (unanswered : before.answer? engine (renderText text) = none) :
    ∃ width reached, EndsStopped engine text before root width reached := by
  obtain ⟨width, reached, stops⟩ := Cache.answer?_eq_none_iff.1 unanswered
  exact ⟨width, reached, read, accepted, stops, stops.growsUnder, stops.refuses.absent,
    Engine.indent?_eq_none_iff.1 stops.refuses.tooWide⟩

namespace Ending

variable {engine : Engine W} {text : String} {before : Cache W}
  {outcome : Option (Rendering × Cache W)} {ending first second : Ending W}

theorem Holds.read (holds : ending.Holds engine text before outcome) :
    Element.read? text = ending.root? := by
  cases ending with
  | malformed => obtain ⟨_, _, _, ends⟩ := holds; exact ends.unread
  | rejected | rendered => obtain ⟨_, _, _, ends⟩ := holds; exact ends.read
  | stopped => exact holds.2.read

theorem Holds.verdict (holds : ending.Holds engine text before outcome) {root : Element}
    (isRoot : ending.root? = some root) : root.validate = ending.verdict := by
  cases ending with
  | malformed => cases isRoot
  | rejected => obtain ⟨_, _, _, ends⟩ := holds; cases isRoot; exact ends.broken
  | rendered => obtain ⟨_, _, _, ends⟩ := holds; cases isRoot; exact ends.accepted
  | stopped => cases isRoot; exact holds.2.accepted

/-- What is read decides between the first ending and the others, what the checker says between a
violation and the last two, and between these whether there is a result. -/
theorem Holds.unique (holds : first.Holds engine text before outcome)
    (other : second.Holds engine text before outcome) : first = second := by
  have sameRoot : first.root? = second.root? := holds.read.symm.trans other.read
  have sameVerdict {root : Element} (isRoot : first.root? = some root) :
      first.verdict = second.verdict :=
    (holds.verdict isRoot).symm.trans (other.verdict (sameRoot ▸ isRoot))
  cases first with
  | malformed =>
      cases second with
      | malformed => rfl
      | rejected | rendered | stopped => cases sameRoot
  | rejected root breach =>
      cases second with
      | malformed => cases sameRoot
      | rejected => cases sameRoot; cases sameVerdict rfl; rfl
      | rendered | stopped => cases sameVerdict rfl
  | rendered root surface =>
      obtain ⟨rendering, after, found, ends⟩ := holds
      cases second with
      | malformed => cases sameRoot
      | rejected => cases sameVerdict rfl
      | rendered =>
          obtain ⟨_, _, otherFound, otherEnds⟩ := other
          cases found.symm.trans otherFound
          cases sameRoot
          cases ends.result.symm.trans otherEnds.result
          rfl
      | stopped => exact absurd (found.symm.trans other.1) nofun
  | stopped root width reached =>
      cases second with
      | malformed => cases sameRoot
      | rejected => cases sameVerdict rfl
      | rendered =>
          obtain ⟨_, _, found, _⟩ := other
          exact absurd (found.symm.trans holds.1) nofun
      | stopped =>
          cases sameRoot
          obtain ⟨rfl, rfl⟩ := holds.2.stops.unique other.2.stops
          rfl

end Ending

theorem exists_ending (text : String) (engine : Engine W) (cache : Cache W) :
    ∃ ending : Ending W, ending.Holds engine text cache
      (cache.answer? engine (renderText text)) := by
  cases read : Element.read? text with
  | none =>
      have malformed : (renderText text : Query W Rendering) = pure ⟨.error .malformed, []⟩ := by
        rw [renderText, read]
      rw [malformed]
      exact ⟨.malformed, _, _, rfl, read, rfl, rfl, rfl⟩
  | some root =>
      cases verdict : root.validate with
      | error breach =>
          rw [renderText_of_read read, Element.render_of_error verdict]
          exact ⟨.rejected root breach, _, _, rfl, read, verdict, rfl, rfl, rfl⟩
      | ok done =>
          cases outcome : cache.answer? engine (renderText text) with
          | some found =>
              obtain ⟨surface, ends⟩ := Element.endsRendered read verdict outcome
              exact ⟨.rendered root surface, found.1, found.2, rfl, ends⟩
          | none =>
              obtain ⟨width, reached, ends⟩ := Element.endsStopped read verdict outcome
              exact ⟨.stopped root width reached, rfl, ends⟩

/-- Every render of JSON text through a cache, whatever its entries, ends in exactly one way. It has
a result if the engine has room for the indents that the render asks it for and finds in the cache
what it would make itself. -/
theorem renderText_ending (text : String) (engine : Engine W) (cache : Cache W) :
    (∃! ending : Ending W, ending.Holds engine text cache
      (cache.answer? engine (renderText text))) ∧
      ((renderText text : Query W Rendering).Asks engine engine.HasRoomFor →
        cache.Sound (· = engine) → (cache.answer? engine (renderText text)).isSome = true) := by
  refine ⟨?_, fun asks sound => ?_⟩
  · obtain ⟨ending, holds⟩ := exists_ending text engine cache
    exact ⟨ending, holds, fun other otherHolds => otherHolds.unique holds⟩
  · have answered := Cache.answer?_of_asks asks sound
    rw [← Option.isSome_map (f := Prod.fst), answered]
    rfl

/-- The text of a tree with a numbered list that starts below zero. -/
def countdownText : String :=
  "\x7b\"type\": \"Blocks\", \"children\": [\x7b\"type\": \"Section\", \"children\": [" ++
    "\x7b\"type\": \"ol\", \"attrs\": \x7b\"start\": -1\x7d, \"children\": [" ++
      "\x7b\"type\": \"li\", \"children\": [\"a\"]\x7d, " ++
      "\x7b\"type\": \"li\", \"children\": [\"b\"]\x7d]\x7d]\x7d]\x7d"

/-- With the reference metrics there is room for the list. With a wide fallback, which the minus
sign has for its width, the render of the same text stops at the padding of the second item. -/
theorem countdownText_stopped :
    (Cache.empty.answer? Engine.reference (renderText countdownText)).isSome = true ∧
      ∃ root width reached, (Ending.stopped root width reached).Holds ⟨.reference, 1e300⟩
        countdownText Cache.empty
        (Cache.empty.answer? (⟨.reference, 1e300⟩ : Engine Float) (renderText countdownText)) := by
  -- One evaluation of all three, so that the text is read only once.
  have facts : (renderText countdownText : Query Float Rendering).Asks .reference
        Engine.reference.HasRoomFor ∧
      ((Element.read? countdownText).any fun root => decide (root.validate = .ok ())) = true ∧
      (Cache.empty.answer? (⟨.reference, 1e300⟩ : Engine Float)
        (renderText countdownText)).isNone = true := by decide +kernel
  have withRoom := (renderText_ending countdownText Engine.reference Cache.empty).2
  refine ⟨withRoom ?_ .empty, ?_⟩
  · with_reducible exact facts.1
  obtain ⟨accepted, noResult⟩ := facts.2
  obtain ⟨ending, holds, -⟩ := (renderText_ending countdownText ⟨.reference, 1e300⟩ Cache.empty).1
  have sameRoot := holds.read
  cases ending with
  | malformed => rw [sameRoot] at accepted; cases accepted
  | rejected root breach =>
      have isOk := holds.verdict rfl
      rw [sameRoot] at accepted
      simp [Ending.root?, isOk, Ending.verdict] at accepted
  | rendered root surface =>
      obtain ⟨rendering, after, found, -⟩ := holds
      rw [found] at noResult
      cases noResult
  | stopped root width reached => exact ⟨root, width, reached, holds⟩

end MessageBlocks
