import MessageBlocks.Compile.Surface
import MessageBlocks.Proofs.Payload.Surface
import MessageBlocks.Proofs.Tree.Descent

/-!
# Provenance of texts and styles

Every text in the markup of the client that a payload holds has been rendered from
neighbouring children of one element of the tree, or it is what an element with raw
markup says. Every style of a payload is the style of a button or of a dialog in
the tree. This is followed through the compilation of each part.
-/

namespace MessageBlocks

variable {W : Type} [Width W]

theorem Query.answer_mapM {α β : Type} (engine : Engine W) (step : α → Query W β)
    (items : List α) :
    (items.mapM step).answer engine = items.map fun item => (step item).answer engine := by
  induction items with
  | nil => rfl
  | cons item rest ih => simp [List.mapM_cons, ih]

/-- `root.Writes engine text`: the text has been rendered from a run of children of an
element in the tree of `root`, or is the raw markup of one. -/
inductive Element.Writes (root : Element) (engine : Engine W) : String → Prop where
  | rendered {element : Element} {nodes : List Node} (inside : root.Within element)
      (run : nodes <:+: element.children) :
      Writes root engine
        (String.ofList ((Markup.render (Node.markup nodes)).answer engine))
  | raw {element : Element} (inside : root.Within element) (tag : element.tag? = some .mrkdwn)
      (isRaw : element.isSet "raw" = true) :
      Writes root engine (String.ofList (Node.rawTexts element.children))

/-- `root.Wears style`: a button or a dialog in the tree of `root` has the style. -/
def Element.Wears (root : Element) (style : String) : Prop :=
  ∃ element, root.Within element ∧
    (element.tag? = some .button ∨ element.tag? = some .confirm) ∧
    element.literal? "style" = some style

namespace Element

variable {root element child : Element} {engine : Engine W} {text style : String}

theorem Writes.above (inside : root.Within element) (writes : element.Writes engine text) :
    root.Writes engine text := by
  cases writes with
  | rendered below run => exact .rendered (inside.trans below) run
  | raw below tag isRaw => exact .raw (inside.trans below) tag isRaw

theorem Wears.above (inside : root.Within element) (wears : element.Wears style) :
    root.Wears style := by
  obtain ⟨wearer, below, tag, found⟩ := wears
  exact ⟨wearer, inside.trans below, tag, found⟩

theorem within_of_mem_elements (member : child ∈ element.elements) : element.Within child :=
  Within.root.child (mem_elements.1 member)

theorem mem_childrenOf {tag : Tag} :
    child ∈ element.childrenOf tag ↔ child ∈ element.elements ∧ child.tag? = some tag := by
  simp [childrenOf]

theorem writes_mrkdwn (element : Element) :
    element.Writes engine (element.mrkdwn.answer engine) := by
  rw [mrkdwn, Query.answer_map]
  exact .rendered .root (List.infix_refl _)

theorem explicitText_answer (engine : Engine W) (element : Element) :
    element.explicitText.answer engine =
      .mrkdwn (if element.isSet "raw" then String.ofList (Node.rawTexts element.children)
        else element.mrkdwn.answer engine) (element.bool? "verbatim") := by
  rw [explicitText]
  split <;> rw [Query.answer_bind] <;> rfl

theorem writes_explicitText (tag : element.tag? = some .mrkdwn)
    (member : text ∈ (element.explicitText.answer engine).texts) :
    element.Writes engine text := by
  rw [explicitText_answer] at member
  obtain rfl := List.mem_singleton.1 member
  split
  · next isRaw => exact .raw .root tag isRaw
  · exact element.writes_mrkdwn

theorem confirmation?_answer {confirmation : Confirmation}
    (found : element.confirmation?.answer engine = some confirmation) :
    ∃ child ∈ element.childrenOf .confirm, child.confirmation.answer engine = confirmation := by
  rw [confirmation?] at found
  split at found
  · next child first =>
      rw [Query.answer_map] at found
      exact ⟨child, List.mem_of_head? first, Option.some.inj found⟩
  · cases found

theorem mem_selection {α : Type} {initial : List α} {choice : α}
    (member : choice ∈ (element.selection initial).initial) : choice ∈ initial := by
  rw [selection] at member
  split at member
  · exact member
  · exact List.mem_of_head? (by simpa [Selection.initial] using member)

theorem texts_staticSelect {choice : Choice} (member : choice ∈ element.staticSelect.choices) :
    choice.texts = [] := by
  have ofOptions (options : List Element) (among : choice ∈ options.map option) :
      choice.texts = [] := by
    obtain ⟨child, -, rfl⟩ := List.mem_map.1 among
    rfl
  rcases List.mem_append.1 member with offered | selected
  · split at offered
    · exact ofOptions _ offered
    · obtain ⟨group, groupMember, inGroup⟩ := List.mem_flatMap.1 offered
      obtain ⟨child, -, rfl⟩ := List.mem_map.1 groupMember
      exact ofOptions _ inGroup
  · exact ofOptions _ (mem_selection selected)

theorem texts_externalSelect {choice : Choice}
    (member : choice ∈ element.externalSelect.choices) : choice.texts = [] := by
  obtain ⟨child, -, rfl⟩ := List.mem_map.1 (mem_selection member)
  rfl

/-- The choices are made once, and the selected ones are taken from them. This is as good as making
the selected ones anew. -/
theorem labelledChoices_eq (engine : Engine W) (element : Element) (tag : Tag)
    (values : List String) :
    (element.labelledChoices tag values).answer engine =
      ((element.childrenOf tag).map fun child => child.labelledChoice.answer engine,
        ((element.childrenOf tag).filter fun child => child.isChosen "checked" values).map
          fun child => child.labelledChoice.answer engine) := by
  simp only [labelledChoices, Query.answer_bind, Query.answer_mapM, Query.answer_pure]
  refine congrArg (Prod.mk _) ?_
  induction element.childrenOf tag with
  | nil => rfl
  | cons child rest ih =>
      cases chosen : child.isChosen "checked" values <;> simpa [chosen] using ih

/-- A labelled choice, whether offered or chosen, comes from a child. -/
theorem labelledChoices_answer {tag : Tag} {values : List String} {choice : Choice}
    (member : choice ∈ ((element.labelledChoices tag values).answer engine).1 ∨
      choice ∈ ((element.labelledChoices tag values).answer engine).2) :
    ∃ child ∈ element.childrenOf tag, choice = child.labelledChoice.answer engine := by
  rw [labelledChoices_eq] at member
  rcases member with offered | chosen
  · obtain ⟨child, childMember, rfl⟩ := List.mem_map.1 offered
    exact ⟨child, childMember, rfl⟩
  · obtain ⟨child, childMember, rfl⟩ := List.mem_map.1 chosen
    exact ⟨child, List.mem_of_mem_filter childMember, rfl⟩

theorem writes_labelledChoices {tag : Tag} {values : List String} {choice : Choice}
    (member : choice ∈ ((element.labelledChoices tag values).answer engine).1 ∨
      choice ∈ ((element.labelledChoices tag values).answer engine).2)
    (written : text ∈ choice.texts) : element.Writes engine text := by
  obtain ⟨child, childMember, rfl⟩ := labelledChoices_answer member
  simp only [labelledChoice, Query.answer_bind, Query.answer_pure, Choice.texts, TextObject.texts,
    List.mem_singleton] at written
  rw [written]
  exact child.writes_mrkdwn.above (within_of_mem_elements (mem_childrenOf.1 childMember).1)

/-- The texts of a control are the labels of check boxes and radio buttons. -/
theorem writes_control {tag : Tag} {control : Query W Control}
    (found : element.control? tag = some control) {choice : Choice}
    (member : choice ∈ (control.answer engine).choices) (written : text ∈ choice.texts) :
    element.Writes engine text := by
  cases tag
  case select =>
      obtain rfl := Option.some.inj found
      rw [texts_staticSelect member] at written
      cases written
  case externalSelect =>
      obtain rfl := Option.some.inj found
      rw [texts_externalSelect member] at written
      cases written
  case overflow =>
      obtain rfl := Option.some.inj found
      obtain ⟨child, -, rfl⟩ := List.mem_map.1 member
      cases written
  case checkboxGroup =>
      obtain rfl := Option.some.inj found
      rw [checkboxes, Query.answer_bind] at member
      exact writes_labelledChoices (List.mem_append.1 member) written
  case radioButtonGroup =>
      obtain rfl := Option.some.inj found
      rw [radioButtons, Query.answer_bind] at member
      refine writes_labelledChoices ((List.mem_append.1 member).imp_right fun chosen => ?_) written
      exact List.mem_of_head? (Option.mem_toList.1 chosen)
  all_goals cases found
  all_goals exact absurd member List.not_mem_nil

theorem style_control {tag : Tag} {control : Query W Control}
    (found : element.control? tag = some control)
    (styled : (control.answer engine).style? = some style) :
    tag = .button ∧ element.literal? "style" = some style := by
  cases tag
  case button =>
      obtain rfl := Option.some.inj found
      exact ⟨rfl, styled⟩
  case checkboxGroup =>
      obtain rfl := Option.some.inj found
      rw [checkboxes, Query.answer_bind] at styled
      cases styled
  case radioButtonGroup =>
      obtain rfl := Option.some.inj found
      rw [radioButtons, Query.answer_bind] at styled
      cases styled
  all_goals cases found
  all_goals cases styled

theorem component?_answer {component : Component}
    (found : element.component?.answer engine = some component) :
    ∃ tag control, element.tag? = some tag ∧ element.control? tag = some control ∧
      component.control = control.answer engine ∧
      component.confirmation = element.confirmation?.answer engine := by
  rw [component?] at found
  split at found
  · cases found
  · next control interactive =>
      obtain ⟨tag, tagged, controls⟩ := Option.bind_eq_some_iff.1 interactive
      simp only [Query.answer_bind, Query.answer_pure, Option.some.injEq] at found
      subst found
      exact ⟨tag, control, tagged, controls, rfl, rfl⟩

/-- An element whose tag has a control is compiled to a component with this control. -/
theorem component?_of_control {tag : Tag} {control : Query W Control}
    (tagged : element.tag? = some tag) (controls : element.control? tag = some control) :
    element.component?.answer engine =
      some ⟨control.answer engine, element.actionId?, element.confirmation?.answer engine⟩ := by
  simp [component?, tagged, controls]

theorem writes_component {component : Component}
    (found : element.component?.answer engine = some component)
    (member : text ∈ component.texts) : element.Writes engine text := by
  obtain ⟨tag, control, -, controls, sameControl, sameConfirmation⟩ := component?_answer found
  rcases List.mem_append.1 member with inControl | inConfirmation
  · obtain ⟨choice, choiceMember, written⟩ := List.mem_flatMap.1 inControl
    exact writes_control controls (sameControl ▸ choiceMember) written
  · obtain ⟨confirmation, present, rfl⟩ := List.mem_map.1 inConfirmation
    rw [Option.mem_toList, sameConfirmation] at present
    obtain ⟨child, childMember, rfl⟩ := confirmation?_answer present
    rw [confirmation, Query.answer_bind]
    exact child.writes_mrkdwn.above (within_of_mem_elements (mem_childrenOf.1 childMember).1)

theorem wears_component {component : Component}
    (found : element.component?.answer engine = some component)
    (member : style ∈ component.styles) : element.Wears style := by
  obtain ⟨tag, control, tagged, controls, sameControl, sameConfirmation⟩ := component?_answer found
  rcases List.mem_append.1 member with inControl | inConfirmation
  · rw [Option.mem_toList, sameControl] at inControl
    obtain ⟨rfl, styled⟩ := style_control controls inControl
    exact ⟨element, .root, .inl tagged, styled⟩
  · rw [Option.mem_toList, sameConfirmation, Option.bind_eq_some_iff] at inConfirmation
    obtain ⟨confirmation, present, styled⟩ := inConfirmation
    obtain ⟨child, childMember, rfl⟩ := confirmation?_answer present
    rw [Element.confirmation, Query.answer_bind, Query.answer_pure] at styled
    obtain ⟨childElement, childTag⟩ := mem_childrenOf.1 childMember
    exact ⟨child, within_of_mem_elements childElement, .inr childTag, styled⟩

theorem components_answer (engine : Engine W) (elements : List Element) :
    (components elements).answer engine =
      elements.filterMap fun element => element.component?.answer engine := by
  induction elements with
  | nil => rfl
  | cons element rest ih =>
      rw [components, Query.answer_bind, Query.answer_bind, ih, Query.answer_pure]
      cases found : element.component?.answer engine <;> simp [found]

theorem accessory?_answer {accessory : Accessory}
    (found : element.accessory?.answer engine = some accessory) :
    accessory = .image element.image ∨
      ∃ component, accessory = .component component ∧
        element.component?.answer engine = some component := by
  rw [accessory?] at found
  split at found
  · exact .inl (Option.some.inj found).symm
  · rw [Query.answer_bind, Query.answer_pure, Option.map_eq_some_iff] at found
    obtain ⟨component, present, rfl⟩ := found
    exact .inr ⟨component, rfl, present⟩

/-- The text of a section is that of its explicit markup or its own. -/
theorem writes_sectionText {object : TextObject}
    (found : element.sectionText?.answer engine = some object)
    (member : text ∈ object.texts) : element.Writes engine text := by
  rw [sectionText?] at found
  split at found
  · next child first =>
      obtain ⟨childMember, childTag⟩ := mem_childrenOf.1 (List.mem_of_head? first)
      rw [Query.answer_map, Option.some.injEq] at found
      subst found
      exact (writes_explicitText childTag member).above (within_of_mem_elements childMember)
  · rw [Query.answer_bind] at found
    split at found
    · cases found
    · obtain rfl := Option.some.inj found
      obtain rfl := List.mem_singleton.1 member
      exact element.writes_mrkdwn

/-- What a section shows: its text, the texts of its fields and its accessory. -/
theorem sectionContent_answer (engine : Engine W) (element : Element) :
    element.sectionContent.answer engine =
      .sectionText (element.sectionText?.answer engine)
        ((element.childrenOf .field).map fun child => .mrkdwn (child.mrkdwn.answer engine) none)
        ((element.elements.find? isAccessory).bind fun child =>
          child.accessory?.answer engine) := by
  rw [sectionContent, Query.answer_bind, Query.answer_bind, Query.answer_mapM]
  cases element.elements.find? isAccessory with
  | none => simp [Function.comp_def]
  | some child => simp [Function.comp_def]

theorem inputContent_answer (engine : Engine W) (element : Element) :
    element.inputContent.answer engine =
      .input ((element.literal? "label").getD "")
        ((element.elements.find? (·.tag?.any Tag.isInteractive)).bind fun child =>
          child.component?.answer engine)
        (element.literal? "hint") (element.bool? "optional") (element.bool? "dispatchAction") := by
  rw [inputContent]
  cases element.elements.find? (·.tag?.any Tag.isInteractive) with
  | none => rfl
  | some child => simp

end Element

namespace ContextSegment

theorem elements_answer (engine : Engine W) (segments : List ContextSegment) :
    (elements segments).answer engine =
      segments.filterMap fun segment => segment.element?.answer engine := by
  induction segments with
  | nil => rfl
  | cons segment rest ih =>
      rw [elements, Query.answer_bind, Query.answer_bind, ih, Query.answer_pure]
      cases found : segment.element?.answer engine <;> simp [found]

/-- A segment of the children of a context is an image or explicit markup among them, or
a run of neighbours. -/
def IsOf (nodes : List Node) : ContextSegment → Prop
  | .image child => .element child ∈ nodes
  | .explicit child => .element child ∈ nodes ∧ child.tag? = some .mrkdwn
  | .run neighbours => neighbours <:+: nodes

theorem isOf_segment {node : Node} {segment : ContextSegment} {nodes : List Node}
    (found : node.segment? = some segment) (member : node ∈ nodes) : segment.IsOf nodes := by
  cases node with
  | text content => cases found
  | element child =>
      simp only [Node.segment?] at found
      split at found
      · obtain rfl := Option.some.inj found
        exact member
      · next tag =>
          obtain rfl := Option.some.inj found
          exact ⟨member, tag⟩
      · cases found

/-- While a context is cut into segments, the children before the pending run have been
cut already. -/
theorem isOf_segments (before pending : List Node) {nodes rest : List Node}
    {segment : ContextSegment} (whole : nodes = before ++ pending ++ rest)
    (member : segment ∈ Node.segments pending rest) : segment.IsOf nodes := by
  induction rest generalizing pending before with
  | nil =>
      obtain rfl := List.mem_singleton.1 member
      exact ⟨before, [], whole.symm⟩
  | cons node rest ih =>
      rw [Node.segments] at member
      split at member
      · next found =>
          rcases List.mem_cons.1 member with rfl | member
          · exact ⟨before, node :: rest, whole.symm⟩
          · rcases List.mem_cons.1 member with rfl | member
            · exact isOf_segment found (by simp [whole])
            · exact ih (before ++ pending ++ [node]) [] (by simp [whole]) member
      · exact ih before (pending ++ [node]) (by simp [whole]) member

end ContextSegment

namespace Element

variable {root element child : Element} {engine : Engine W} {text style : String}

theorem writes_contextElement {segment : ContextSegment} {part : ContextElement}
    (segmentOf : segment.IsOf element.children)
    (found : segment.element?.answer engine = some part) (member : text ∈ part.texts) :
    element.Writes engine text := by
  cases segment with
  | image child =>
      obtain rfl := Option.some.inj found
      cases member
  | explicit child =>
      rw [ContextSegment.element?, Query.answer_map, Option.some.injEq] at found
      subst found
      exact (writes_explicitText segmentOf.2 member).above (Within.root.child segmentOf.1)
  | run nodes =>
      rw [ContextSegment.element?, Query.answer_bind] at found
      split at found
      · cases found
      · obtain rfl := Option.some.inj found
        obtain rfl := List.mem_singleton.1 member
        exact .rendered .root segmentOf

theorem writes_accessory {accessory : Accessory}
    (found : element.accessory?.answer engine = some accessory)
    (member : text ∈ accessory.texts) : element.Writes engine text := by
  rcases accessory?_answer found with rfl | ⟨component, rfl, present⟩
  · cases member
  · exact writes_component present member

theorem wears_accessory {accessory : Accessory}
    (found : element.accessory?.answer engine = some accessory)
    (member : style ∈ accessory.styles) : element.Wears style := by
  rcases accessory?_answer found with rfl | ⟨component, rfl, present⟩
  · cases member
  · exact wears_component present member

theorem block?_answer {block : Block} (found : element.block?.answer engine = some block) :
    ∃ tag content, element.tag? = some tag ∧ element.blockContent? tag = some content ∧
      block.content = content.answer engine := by
  rw [block?] at found
  split at found
  · cases found
  · next content shown =>
      obtain ⟨tag, tagged, contents⟩ := Option.bind_eq_some_iff.1 shown
      simp only [Query.answer_bind, Query.answer_pure, Option.some.injEq] at found
      subst found
      exact ⟨tag, content, tagged, contents, rfl⟩

/-- An element whose tag has a content is compiled to a block with this content. -/
theorem block?_of_content {tag : Tag} {content : Query W BlockContent}
    (tagged : element.tag? = some tag) (contents : element.blockContent? tag = some content) :
    element.block?.answer engine = some ⟨content.answer engine, element.blockId?⟩ := by
  simp [block?, tagged, contents]

theorem writes_section {id : Option String}
    (member : text ∈ Block.texts ⟨element.sectionContent.answer engine, id⟩) :
    element.Writes engine text := by
  simp only [sectionContent_answer, Block.texts, List.mem_append, List.mem_flatMap,
    Option.mem_toList, List.mem_map] at member
  rcases member with (⟨object, shown, written⟩ | ⟨object, ⟨child, childMember, rfl⟩, written⟩) |
    ⟨accessory, present, written⟩
  · exact writes_sectionText shown written
  · obtain rfl := List.mem_singleton.1 written
    exact child.writes_mrkdwn.above (within_of_mem_elements (mem_childrenOf.1 childMember).1)
  · obtain ⟨child, first, found⟩ := Option.bind_eq_some_iff.1 present
    exact (writes_accessory found written).above
      (within_of_mem_elements (List.mem_of_find?_eq_some first))

theorem writes_context {id : Option String}
    (member : text ∈ Block.texts ⟨element.contextContent.answer engine, id⟩) :
    element.Writes engine text := by
  simp only [contextContent, Query.answer_map, ContextSegment.elements_answer, Block.texts,
    List.mem_flatMap, List.mem_filterMap] at member
  obtain ⟨part, ⟨segment, segmentMember, found⟩, written⟩ := member
  exact writes_contextElement (ContextSegment.isOf_segments [] [] rfl segmentMember) found written

theorem writes_block {block : Block} (found : element.block?.answer engine = some block)
    (member : text ∈ block.texts) : element.Writes engine text := by
  obtain ⟨tag, content, -, contents, same⟩ := block?_answer found
  obtain ⟨shown, id⟩ := block
  obtain rfl : shown = content.answer engine := same
  cases tag
  case sectionBlock =>
      obtain rfl := Option.some.inj contents
      exact writes_section member
  case actions =>
      obtain rfl := Option.some.inj contents
      simp only [Query.answer_map, components_answer, Block.texts, List.mem_flatMap,
        List.mem_filterMap] at member
      obtain ⟨component, ⟨child, childMember, present⟩, written⟩ := member
      exact (writes_component present written).above (within_of_mem_elements childMember)
  case context =>
      obtain rfl := Option.some.inj contents
      exact writes_context member
  case input =>
      obtain rfl := Option.some.inj contents
      simp only [inputContent_answer, Block.texts, List.mem_flatMap, Option.mem_toList] at member
      obtain ⟨component, present, written⟩ := member
      obtain ⟨child, first, found⟩ := Option.bind_eq_some_iff.1 present
      exact (writes_component found written).above
        (within_of_mem_elements (List.mem_of_find?_eq_some first))
  all_goals cases contents
  all_goals exact absurd member List.not_mem_nil

theorem wears_block {block : Block} (found : element.block?.answer engine = some block)
    (member : style ∈ block.styles) : element.Wears style := by
  obtain ⟨tag, content, -, contents, same⟩ := block?_answer found
  obtain ⟨shown, id⟩ := block
  obtain rfl : shown = content.answer engine := same
  cases tag
  case sectionBlock =>
      obtain rfl := Option.some.inj contents
      simp only [sectionContent_answer, Block.styles, List.mem_flatMap, Option.mem_toList] at member
      obtain ⟨accessory, present, worn⟩ := member
      obtain ⟨child, first, found⟩ := Option.bind_eq_some_iff.1 present
      exact (wears_accessory found worn).above
        (within_of_mem_elements (List.mem_of_find?_eq_some first))
  case actions =>
      obtain rfl := Option.some.inj contents
      simp only [Query.answer_map, components_answer, Block.styles, List.mem_flatMap,
        List.mem_filterMap] at member
      obtain ⟨component, ⟨child, childMember, present⟩, worn⟩ := member
      exact (wears_component present worn).above (within_of_mem_elements childMember)
  case context =>
      obtain rfl := Option.some.inj contents
      simp only [contextContent, Query.answer_map] at member
      exact absurd member List.not_mem_nil
  case input =>
      obtain rfl := Option.some.inj contents
      simp only [inputContent_answer, Block.styles, List.mem_flatMap, Option.mem_toList] at member
      obtain ⟨component, present, worn⟩ := member
      obtain ⟨child, first, found⟩ := Option.bind_eq_some_iff.1 present
      exact (wears_component found worn).above
        (within_of_mem_elements (List.mem_of_find?_eq_some first))
  all_goals cases contents
  all_goals exact absurd member List.not_mem_nil

theorem blocksOf_answer (engine : Engine W) (elements : List Element) :
    (blocksOf elements).answer engine =
      elements.filterMap fun element => element.block?.answer engine := by
  induction elements with
  | nil => rfl
  | cons element rest ih =>
      rw [blocksOf, Query.answer_bind, Query.answer_bind, ih, Query.answer_pure]
      cases found : element.block?.answer engine <;> simp [found]

theorem surface_blocks (engine : Engine W) (root : Element) :
    (root.surface.answer engine).blocks =
      root.elements.filterMap fun element => element.block?.answer engine := by
  rw [← blocksOf_answer, surface, Query.answer_bind]
  split <;> rfl

/-- Every text of the surface of a tree has been written by the tree. -/
theorem writes_of_mem_texts (member : text ∈ (root.surface.answer engine).texts) :
    root.Writes engine text := by
  rw [Surface.texts, surface_blocks] at member
  obtain ⟨block, blockMember, written⟩ := List.mem_flatMap.1 member
  obtain ⟨child, childMember, found⟩ := List.mem_filterMap.1 blockMember
  exact (writes_block found written).above (within_of_mem_elements childMember)

/-- Every style of the surface of a tree is worn in the tree. -/
theorem wears_of_mem_styles (member : style ∈ (root.surface.answer engine).styles) :
    root.Wears style := by
  rw [Surface.styles, surface_blocks] at member
  obtain ⟨block, blockMember, worn⟩ := List.mem_flatMap.1 member
  obtain ⟨child, childMember, found⟩ := List.mem_filterMap.1 blockMember
  exact (wears_block found worn).above (within_of_mem_elements childMember)

/-- Every object in the markup of the client that the payload of a tree holds, at any depth,
has a text that the tree has written. -/
theorem everywhere_writes (root : Element) (engine : Engine W) :
    (root.surface.answer engine).toJson.Everywhere fun part =>
      part.HasType ["mrkdwn"] →
        ∃ text, part.member? "text" = some (.string text) ∧ root.Writes engine text := by
  have regular : (root.surface.answer engine).toJson.Everywhere
      (Json.Regular (root.Writes engine) fun _ => True) := by
    apply Surface.everywhere_regular
    · intro text member
      exact writes_of_mem_texts member
    · intro _ _
      trivial
  exact fun part inside => (regular part inside).marked

end Element

end MessageBlocks
