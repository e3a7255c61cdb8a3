import MessageBlocks.Proofs.Compile.Conformance

/-!
# Runs of a context

The children of a context are cut at images and at explicit markup, in exactly one way. Each of
these has an element of the block to itself, and the children between two of them, as well as in
front of the first and behind the last, are rendered as one text. So the elements of the block can
be read off the cut, from left to right.
-/

namespace MessageBlocks

open Json

/-- Whether an element has an element of a context to itself. -/
def Element.StandsAlone (element : Element) : Prop :=
  element.tag? = some .image ∨ element.tag? = some .mrkdwn

instance : DecidablePred Element.StandsAlone := fun element =>
  inferInstanceAs (Decidable (element.tag? = some .image ∨ element.tag? = some .mrkdwn))

def Node.StandsAlone : Node → Prop
  | .text _ => False
  | .element child => child.StandsAlone

instance : DecidablePred Node.StandsAlone
  | .text _ => .isFalse id
  | .element child => inferInstanceAs (Decidable child.StandsAlone)

/-- Nodes cut into a first run and others, each of which follows an element. -/
structure ContextCut where
  first : List Node
  parts : List (Element × List Node)

namespace ContextCut

/-- The nodes that have been cut. -/
def nodes (cut : ContextCut) : List Node :=
  cut.first ++ cut.parts.flatMap fun part => .element part.1 :: part.2

/-- The nodes are cut at all elements that stand alone, and only there. -/
structure IsOf (cut : ContextCut) (nodes : List Node) : Prop where
  whole : nodes = cut.nodes
  alone : ∀ part ∈ cut.parts, part.1.StandsAlone
  firstRun : ∀ node ∈ cut.first, ¬ node.StandsAlone
  runs : ∀ part ∈ cut.parts, ∀ node ∈ part.2, ¬ node.StandsAlone

variable {W : Type} [Width W]

/-- The objects for a run: its text in the markup of the client, none if that is empty. -/
def runJson (engine : Engine W) (run : List Node) : List Json :=
  let text := String.ofList ((Markup.render (Node.markup run)).answer engine)
  if text = "" then [] else [(TextObject.mrkdwn text none).toJson]

/-- The object for an element that stands alone. -/
def aloneJson (engine : Engine W) (element : Element) : Json :=
  if element.tag? = some .image then (ContextElement.image element.image).toJson
  else (element.explicitText.answer engine).toJson

/-- The objects for all that has been cut, from left to right. -/
def toJson (engine : Engine W) (cut : ContextCut) : List Json :=
  runJson engine cut.first ++
    cut.parts.flatMap fun part => aloneJson engine part.1 :: runJson engine part.2

end ContextCut

/-! ## The only cut -/

namespace Node

theorem segment?_eq_none_iff {node : Node} : node.segment? = none ↔ ¬ node.StandsAlone := by
  cases node with
  | text content => simp [segment?, StandsAlone]
  | element child =>
      rw [segment?, StandsAlone, Element.StandsAlone]
      split <;> simp_all

end Node

namespace ContextCut

variable {cut other : ContextCut} {node : Node} {element : Element} {rest : List Node}

theorem IsOf.nil : IsOf ⟨[], []⟩ [] where
  whole := rfl
  alone := nofun
  firstRun := nofun
  runs := nofun

/-- An element that stands alone is followed by what was the first run. -/
theorem IsOf.cons_alone (alone : element.StandsAlone) (isCut : cut.IsOf rest) :
    IsOf ⟨[], (element, cut.first) :: cut.parts⟩ (.element element :: rest) where
  whole := by
    rw [isCut.whole]
    rfl
  alone := List.forall_mem_cons.2 ⟨alone, isCut.alone⟩
  firstRun := nofun
  runs := List.forall_mem_cons.2 ⟨isCut.firstRun, isCut.runs⟩

/-- Any other node joins the first run. -/
theorem IsOf.cons_run (notAlone : ¬ node.StandsAlone) (isCut : cut.IsOf rest) :
    IsOf ⟨node :: cut.first, cut.parts⟩ (node :: rest) where
  whole := by
    rw [isCut.whole]
    rfl
  alone := isCut.alone
  firstRun := List.forall_mem_cons.2 ⟨notAlone, isCut.firstRun⟩
  runs := isCut.runs

/-- Where no nodes are left, nothing is cut. -/
theorem IsOf.nil_inv (isCut : cut.IsOf []) : cut = ⟨[], []⟩ := by
  obtain ⟨first, parts⟩ := cut
  obtain ⟨noFirst, noParts⟩ := List.append_eq_nil_iff.1 isCut.whole.symm
  cases parts with
  | nil => exact congrArg (ContextCut.mk · []) noFirst
  | cons part rest => cases noParts

/-- What there is before the first node was cut: the node stands alone in front of the first run, or
it is part of that run. -/
theorem IsOf.cons_inv (isCut : cut.IsOf (node :: rest)) :
    (∃ (element : Element) (tail : ContextCut), node = .element element ∧
        element.StandsAlone ∧ tail.IsOf rest ∧ cut = ⟨[], (element, tail.first) :: tail.parts⟩) ∨
      ∃ tail : ContextCut, ¬ node.StandsAlone ∧ tail.IsOf rest ∧
        cut = ⟨node :: tail.first, tail.parts⟩ := by
  obtain ⟨first, parts⟩ := cut
  obtain ⟨whole, alone, firstRun, runs⟩ := isCut
  cases first with
  | nil =>
      cases parts with
      | nil => cases whole
      | cons part parts =>
          obtain ⟨element, run⟩ := part
          obtain ⟨here, behind⟩ := List.forall_mem_cons.1 alone
          obtain ⟨inRun, inOthers⟩ := List.forall_mem_cons.1 runs
          obtain ⟨rfl, left⟩ := List.cons.inj whole
          exact .inl ⟨element, ⟨run, parts⟩, rfl, here, ⟨left, behind, inRun, inOthers⟩, rfl⟩
  | cons head first =>
      obtain ⟨here, inRun⟩ := List.forall_mem_cons.1 firstRun
      obtain ⟨rfl, left⟩ := List.cons.inj whole
      exact .inr ⟨⟨first, parts⟩, here, ⟨left, alone, inRun, runs⟩, rfl⟩

theorem exists_isOf (nodes : List Node) : ∃ cut : ContextCut, cut.IsOf nodes := by
  induction nodes with
  | nil => exact ⟨_, .nil⟩
  | cons node rest ih =>
      obtain ⟨cut, isCut⟩ := ih
      by_cases alone : node.StandsAlone
      · cases node with
        | text content => cases alone
        | element child => exact ⟨_, isCut.cons_alone alone⟩
      · exact ⟨_, isCut.cons_run alone⟩

/-- There is only one way to cut nodes. -/
theorem IsOf.unique {nodes : List Node} (isCut : cut.IsOf nodes) (isOther : other.IsOf nodes) :
    cut = other := by
  induction nodes generalizing cut other with
  | nil => rw [isCut.nil_inv, isOther.nil_inv]
  | cons node rest ih =>
      -- whether the first node stands alone is the same for both
      rcases isCut.cons_inv with ⟨element, tail, rfl, alone, isTail, rfl⟩ |
        ⟨tail, notAlone, isTail, rfl⟩
      · rcases isOther.cons_inv with ⟨_, otherTail, same, -, isOtherTail, rfl⟩ |
          ⟨_, notAlone, -, -⟩
        · obtain rfl := Node.element.inj same
          rw [ih isTail isOtherTail]
        · exact absurd alone notAlone
      · rcases isOther.cons_inv with ⟨_, _, rfl, alone, -, -⟩ | ⟨otherTail, -, isOtherTail, rfl⟩
        · exact absurd alone notAlone
        · rw [ih isTail isOtherTail]

/-- The elements that stand alone keep their order. -/
theorem IsOf.map_fst_parts {nodes : List Node} (isCut : cut.IsOf nodes) :
    cut.parts.map Prod.fst =
      (nodes.filterMap Node.element?).filter fun element => element.StandsAlone := by
  induction nodes generalizing cut with
  | nil =>
      rw [isCut.nil_inv]
      rfl
  | cons node rest ih =>
      rcases isCut.cons_inv with ⟨element, tail, rfl, alone, isTail, rfl⟩ |
        ⟨tail, notAlone, isTail, rfl⟩
      · simp [Node.element?, alone, ih isTail]
      · have following := ih isTail
        cases node with
        | text content =>
            rw [List.filterMap_cons_none rfl]
            exact following
        | element child =>
            have notAlone : ¬ child.StandsAlone := notAlone
            simpa [Node.element?, notAlone] using following

end ContextCut

/-! ## Segments -/

/-- The segment of an element that stands alone. -/
def Element.contextSegment (element : Element) : ContextSegment :=
  if element.tag? = some .image then .image element else .explicit element

theorem Node.segment?_of_standsAlone {element : Element} (alone : element.StandsAlone) :
    (Node.element element).segment? = some element.contextSegment := by
  rw [segment?, Element.contextSegment]
  rcases alone with tagged | tagged <;> simp [tagged]

namespace ContextCut

/-- While the nodes are cut into segments, the pending run is continued by the first run of those
that are left, and the segments behind it are those of the other parts. -/
theorem IsOf.segments_eq {cut : ContextCut} {nodes : List Node} (isCut : cut.IsOf nodes)
    (pending : List Node) :
    Node.segments pending nodes = .run (pending ++ cut.first) ::
      cut.parts.flatMap fun part => [part.1.contextSegment, .run part.2] := by
  induction nodes generalizing cut pending with
  | nil =>
      rw [isCut.nil_inv, Node.segments, List.append_nil]
      rfl
  | cons node rest ih =>
      rw [Node.segments]
      rcases isCut.cons_inv with ⟨element, tail, rfl, alone, isTail, rfl⟩ |
        ⟨tail, notAlone, isTail, rfl⟩
      · rw [Node.segment?_of_standsAlone alone, ih isTail []]
        simp
      · rw [Node.segment?_eq_none_iff.2 notAlone, ih isTail (pending ++ [node])]
        simp

end ContextCut

section Answers

variable {W : Type} [Width W]

/-- The objects for a segment: one, or none for a run without text. -/
def ContextSegment.objects (engine : Engine W) (segment : ContextSegment) : List Json :=
  (segment.element?.answer engine).toList.map ContextElement.toJson

theorem ContextSegment.objects_run (engine : Engine W) (run : List Node) :
    (ContextSegment.run run).objects engine = ContextCut.runJson engine run := by
  rw [objects, element?, Query.answer_bind, ContextCut.runJson]
  cases text : (Markup.render (Node.markup run)).answer engine with
  | nil => rfl
  | cons character rest => simp [ContextElement.toJson]

theorem Element.objects_contextSegment (engine : Engine W) (element : Element) :
    element.contextSegment.objects engine = [ContextCut.aloneJson engine element] := by
  rw [contextSegment, ContextCut.aloneJson]
  split
  · rfl
  · rw [ContextSegment.objects, ContextSegment.element?, Query.answer_map]
    rfl

/-- The elements of a context, in JSON. -/
theorem ContextCut.IsOf.objects_segments {cut : ContextCut} {nodes : List Node}
    (isCut : cut.IsOf nodes) (engine : Engine W) :
    ((ContextSegment.elements (Node.segments [] nodes)).answer engine).map ContextElement.toJson =
      cut.toJson engine := by
  rw [ContextSegment.elements_answer, List.filterMap_eq_flatMap_toList, List.map_flatMap]
  change (Node.segments [] nodes).flatMap (ContextSegment.objects engine) = _
  rw [isCut.segments_eq, List.nil_append, List.flatMap_cons, ContextSegment.objects_run,
    List.flatMap_assoc, toJson]
  refine congrArg (_ ++ ·) (List.flatMap_congr fun part _ => ?_)
  rw [List.flatMap_cons, List.flatMap_singleton, Element.objects_contextSegment,
    ContextSegment.objects_run, List.singleton_append]

end Answers

variable {W : Type} [Width W]

/-- The children of a context can be cut in one way, and are then cut at all images and explicit
markup among them. The elements of the block are, from left to right, an object for each of these,
and one for each run in front of them, between them and behind them that has a text. -/
theorem context_shows_runs (engine : Engine W) {element : Element}
    (tagged : element.tag? = some .context) :
    ∃ block, element.block?.answer engine = some block ∧
      block.toJson.member? "type" = some (.string "context") ∧
      (∃! cut : ContextCut, cut.IsOf element.children) ∧
      ∀ cut : ContextCut, cut.IsOf element.children →
        cut.parts.map Prod.fst = element.elements.filter (fun child => child.StandsAlone) ∧
        block.toJson.member? "elements" = some (.array (cut.toJson engine)) := by
  have compiled : element.block?.answer engine =
      some ⟨.context ((ContextSegment.elements (Node.segments [] element.children)).answer engine),
        element.blockId?⟩ := by
    rw [Element.block?_of_content tagged rfl, Element.contextContent, Query.answer_map]
  refine ⟨_, compiled, Block.member?_toJson (by decide), ?_, fun cut isCut =>
    ⟨isCut.map_fst_parts, ?_⟩⟩
  · obtain ⟨cut, isCut⟩ := ContextCut.exists_isOf element.children
    exact ⟨cut, isCut, fun other isOther => isOther.unique isCut⟩
  · rw [Block.member?_toJson (by decide), ← isCut.objects_segments engine]
    rfl

/-- An image. -/
def avatar : Element :=
  ⟨"img", .ofList [("src", .string "u"), ("alt", .string "avatar")], []⟩

/-- Explicit markup. -/
def notice : Element :=
  ⟨"Mrkdwn", .ofList [("raw", .bool true)], [.text "*now*"]⟩

/-- A context with a run in front of an image, none between the image and explicit markup, and one
without text behind the explicit markup. -/
def signedContext : Element :=
  ⟨"Context", ∅, [.text "By ", .element ⟨"b", ∅, [.text "me"]⟩, .element avatar, .element notice,
    .text "\n "]⟩

def signedCut : ContextCut where
  first := [.text "By ", .element ⟨"b", ∅, [.text "me"]⟩]
  parts := [(avatar, []), (notice, [.text "\n "])]

theorem signedCut_isOf : signedCut.IsOf signedContext.children where
  whole := rfl
  alone := by decide
  firstRun := by decide
  runs := by decide

/-- Only the runs with a text have an object. -/
theorem signedContext_elements :
    signedContext.tag? = some .context ∧ ∃ block,
      signedContext.block?.answer Engine.reference = some block ∧
        block.toJson.member? "elements" = some (.array
          [(TextObject.mrkdwn "By *me*" none).toJson,
            (ContextElement.image ⟨"u", "avatar"⟩).toJson,
            (TextObject.mrkdwn "*now*" none).toJson]) := by
  have tagged : signedContext.tag? = some .context := by decide
  obtain ⟨block, compiled, -, -, shown⟩ := context_shows_runs Engine.reference tagged
  exact ⟨tagged, block, compiled, (shown signedCut signedCut_isOf).2⟩

end MessageBlocks
