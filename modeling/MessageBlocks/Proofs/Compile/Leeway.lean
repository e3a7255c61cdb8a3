import MessageBlocks.Proofs.Compile.Provenance
import MessageBlocks.Proofs.Lists
import MessageBlocks.Proofs.Markup.Leeway
import MessageBlocks.Proofs.Settings.Resolution

/-!
# Two layouts of a tree

The texts of a payload are rendered from runs of children of the tree. Nothing but their being
empty decides what else the payload holds, so an accepted tree compiles to payloads of one shape
under all engines, and their strings differ in indents alone.
-/

namespace MessageBlocks

variable {W α β : Type} [Width W] {leeway : Leeway}

/-- No element of the tree is a list. -/
def Element.IsListless (root : Element) : Prop :=
  ∀ element, root.Within element → element.kind ≠ "ul" ∧ element.kind ≠ "ol"

/-- The tree obeys the grammar, and it has no lists unless widths may differ. -/
structure Leeway.Settles (leeway : Leeway) (root : Element) : Prop where
  grammatical : Grammatical root
  lists : leeway.widths ∨ root.IsListless

/-- The node is a text or the markup of an element of the tree. -/
def Element.Marks (root : Element) (node : Markup) : Prop :=
  (∃ content, node = .text content) ∨
    ∃ source, root.Within source ∧ Node.markup? (.element source) = some node

namespace Element

variable {root element source : Element} {nodes : List Node} {node outer : Markup}

theorem tag?_of_markup? (found : Node.markup? (.element source) = some node) :
    ∃ tag, source.tag? = some tag := by
  cases tagged : source.tag? with
  | some tag => exact ⟨tag, rfl⟩
  | none =>
      obtain ⟨kind, attributes, children⟩ := source
      rw [tag?] at tagged
      rw [Node.markup?, tagged] at found
      cases found

theorem marks_of_children (inside : root.Within element) (among : nodes ⊆ element.children)
    (member : node ∈ Node.markup nodes) : root.Marks node := by
  rcases Node.mem_markup member with ⟨content, -, same⟩ | ⟨child, childMember, found⟩
  · exact .inl ⟨content, same⟩
  · exact .inr ⟨child, inside.child (among childMember), found⟩

/-- What stands in the items of a list is the markup of children of the items. -/
theorem marks_of_items (inside : root.Within element)
    (member : node ∈ (Node.listItems element.children).flatMap ListItem.children) :
    root.Marks node := by
  obtain ⟨item, itemMember, inItem⟩ := List.mem_flatMap.1 member
  obtain ⟨child, childMember, same⟩ := Node.mem_listItems itemMember
  rw [same] at inItem
  exact marks_of_children (inside.child childMember) (List.Subset.refl _) inItem

theorem Marks.below (marks : root.Marks outer) (member : node ∈ outer.children) :
    root.Marks node := by
  rcases marks with ⟨content, rfl⟩ | ⟨source, inside, found⟩
  · cases member
  · obtain ⟨tag, tagged⟩ := tag?_of_markup? found
    rw [Node.markup?_of_tag tagged] at found
    cases tag
    case unorderedList | orderedList =>
        obtain rfl := Option.some.inj found
        exact marks_of_items inside member
    case lineBreak =>
        obtain rfl := Option.some.inj found
        cases member
    case bold | italic | strike | code | link | time | paragraph | blockquote | preformatted =>
        obtain rfl := Option.some.inj found
        exact marks_of_children inside (List.Subset.refl _) member
    all_goals cases found

theorem marks_of_occurs (inside : root.Within element) (among : nodes ⊆ element.children)
    (occurs : Markup.Occurs (Node.markup nodes) node) : root.Marks node := by
  induction occurs with
  | here member => exact marks_of_children inside among member
  | deeper _ member ih => exact ih.below member

/-- The markup of an element is a list only if the element is one. -/
theorem kind_of_markup?_list {kind : ListKind} {items : List ListItem}
    (found : Node.markup? (.element source) = some (.list kind items)) :
    source.kind = "ul" ∨ source.kind = "ol" := by
  obtain ⟨tag, tagged⟩ := tag?_of_markup? found
  have named := Tag.ofName?_eq_some_iff.1 tagged
  rw [Node.markup?_of_tag tagged] at found
  cases tag
  case unorderedList => exact .inl (List.mem_singleton.1 named)
  case orderedList => exact .inr (List.mem_singleton.1 named)
  all_goals cases found

end Element

namespace Leeway.Settles

variable {root element : Element} {nodes : List Node}

theorem admits (settles : leeway.Settles root) (inside : root.Within element)
    (run : nodes <:+: element.children) : leeway.Admits (Node.markup nodes) := by
  refine settles.lists.imp_right fun listless kind items occurs => ?_
  rcases Element.marks_of_occurs inside run.subset occurs with
    ⟨_, same⟩ | ⟨source, sourceInside, found⟩
  · cases same
  · obtain ⟨notUnordered, notOrdered⟩ := listless source sourceInside
    rcases Element.kind_of_markup?_list found with unordered | ordered
    · exact notUnordered unordered
    · exact notOrdered ordered

/-- A run of children of an element of the tree is rendered alike. -/
theorem render (settles : leeway.Settles root) (inside : root.Within element)
    (run : nodes <:+: element.children) :
    Query.Alike leeway leeway.SameText (Markup.render (Node.markup nodes) : Query W (List Char))
      (Markup.render (Node.markup nodes)) :=
  Markup.alike_render (settles.grammatical.areFormed_run inside run) (settles.admits inside run)

end Leeway.Settles

namespace Leeway

/-- A string without the characters of indents. -/
def stripText (leeway : Leeway) (text : String) : String :=
  String.ofList (leeway.strip text.toList)

/-- Two strings that differ in nothing but indents. -/
def SameString (leeway : Leeway) (first second : String) : Prop :=
  leeway.SameText first.toList second.toList

/-- Two values whose JSON forms have the same shape and differ in nothing but indents in
strings. -/
def SameForm (leeway : Leeway) (encode : α → Json) (first second : α) : Prop :=
  (encode first).mapStrings leeway.stripText = (encode second).mapStrings leeway.stripText

/-- Two lists of fields that differ in nothing but indents in strings. -/
def SameFields (leeway : Leeway) (first second : List (String × Option Json)) : Prop :=
  first.map (Prod.map id (Option.map (Json.mapStrings leeway.stripText))) =
    second.map (Prod.map id (Option.map (Json.mapStrings leeway.stripText)))

variable {encode : α → Json} {first second : α}

theorem SameString.isEmpty_eq {first second : String} (same : leeway.SameString first second) :
    first.isEmpty = second.isEmpty := by
  rw [Bool.eq_iff_iff, String.isEmpty_iff, String.isEmpty_iff, ← String.toList_eq_nil_iff,
    ← String.toList_eq_nil_iff]
  exact same.empty

theorem SameFields.append {first second following others : List (String × Option Json)}
    (same : leeway.SameFields first second) (sameRest : leeway.SameFields following others) :
    leeway.SameFields (first ++ following) (second ++ others) := by
  rw [SameFields, List.map_append, List.map_append]
  exact congrArg₂ _ same sameRest

theorem SameFields.cons {following others : List (String × Option Json)} (name : String)
    {value other : Option Json}
    (same : value.map (Json.mapStrings leeway.stripText) =
      other.map (Json.mapStrings leeway.stripText))
    (sameRest : leeway.SameFields following others) :
    leeway.SameFields ((name, value) :: following) ((name, other) :: others) := by
  rw [SameFields, List.map_cons, List.map_cons]
  exact congrArg₂ _ (congrArg (Prod.mk name) same) sameRest

theorem SameFields.ofFields {first second : List (String × Option Json)}
    (same : leeway.SameFields first second) :
    leeway.SameForm Json.ofFields first second := by
  rw [SameForm, Json.mapStrings_ofFields, Json.mapStrings_ofFields]
  exact congrArg Json.ofFields same

theorem sameForm_items {items others : List α}
    (same : List.Forall₂ (leeway.SameForm encode) items others) :
    leeway.SameForm (fun items => .array (items.map encode)) items others := by
  rw [SameForm, Json.mapStrings, Json.mapStrings]
  congr 1
  induction same with
  | nil => rfl
  | cons first _ ih => exact congrArg₂ List.cons first ih

theorem sameForm_option {value other : Option α}
    (same : Option.Rel (leeway.SameForm encode) value other) :
    (value.map encode).map (Json.mapStrings leeway.stripText) =
      (other.map encode).map (Json.mapStrings leeway.stripText) := by
  cases same with
  | none => rfl
  | some same => exact congrArg some same

theorem sameForm_mrkdwn {first second : String} (same : leeway.SameString first second)
    (verbatim : Option Bool) :
    leeway.SameForm TextObject.toJson (.mrkdwn first verbatim) (.mrkdwn second verbatim) := by
  have sameText : (Json.string first).mapStrings leeway.stripText =
      (Json.string second).mapStrings leeway.stripText :=
    congrArg (fun text => Json.string (String.ofList text)) same.strip
  exact SameFields.ofFields (.cons _ rfl (.cons _ (congrArg some sameText) rfl))

end Leeway

namespace Element

variable {root element : Element}

theorem alike_mrkdwn (settles : leeway.Settles root) (inside : root.Within element) :
    Query.Alike leeway leeway.SameString (element.mrkdwn : Query W String) element.mrkdwn := by
  refine (settles.render inside (List.infix_refl _)).map fun text other same => ?_
  simpa [Leeway.SameString] using same

theorem alike_explicitText (settles : leeway.Settles root) (inside : root.Within element) :
    Query.Alike leeway (leeway.SameForm TextObject.toJson)
      (element.explicitText : Query W TextObject) element.explicitText := by
  rw [explicitText]
  split
  · exact .done rfl
  · exact (alike_mrkdwn settles inside).bind fun text other same =>
      .done (Leeway.sameForm_mrkdwn same _)

theorem alike_confirmation (settles : leeway.Settles root) (inside : root.Within element) :
    Query.Alike leeway (leeway.SameForm Confirmation.toJson)
      (element.confirmation : Query W Confirmation) element.confirmation := by
  refine (alike_mrkdwn settles inside).bind fun text other same => .done ?_
  have sameText := congrArg some (Leeway.sameForm_mrkdwn same none)
  exact Leeway.SameFields.ofFields (.cons _ rfl (.cons _ sameText rfl))

theorem within_of_mem_childrenOf {child : Element} {tag : Tag} (inside : root.Within element)
    (member : child ∈ element.childrenOf tag) : root.Within child :=
  inside.child (mem_elements.1 (mem_childrenOf.1 member).1)

theorem alike_confirmation? (settles : leeway.Settles root) (inside : root.Within element) :
    Query.Alike leeway (Option.Rel (leeway.SameForm Confirmation.toJson))
      (element.confirmation? : Query W (Option Confirmation)) element.confirmation? := by
  rw [confirmation?]
  split
  · next child first =>
      have below := within_of_mem_childrenOf inside (List.mem_of_head? first)
      exact (alike_confirmation settles below).map fun _ _ => .some
  · exact .done .none

theorem alike_labelledChoice (settles : leeway.Settles root) (inside : root.Within element) :
    Query.Alike leeway (leeway.SameForm Choice.toJson) (element.labelledChoice : Query W Choice)
      element.labelledChoice := by
  refine (alike_mrkdwn settles inside).bind fun text other same => .done ?_
  have sameText := congrArg some (Leeway.sameForm_mrkdwn same none)
  exact Leeway.SameFields.ofFields (.cons _ sameText rfl)

/-- Which choices are chosen at first depends on the children alone. -/
theorem forall₂_chosen {related : α → α → Prop} (isChosen : Element → Bool) :
    ∀ (children : List Element) {choices others : List α}, List.Forall₂ related choices others →
      List.Forall₂ related
        (((children.zip choices).filter fun pair => isChosen pair.1).map Prod.snd)
        (((children.zip others).filter fun pair => isChosen pair.1).map Prod.snd)
  | [], _, _, _ => .nil
  | _ :: _, _, _, .nil => .nil
  | child :: rest, _, _, .cons same sameRest => by
      have following := forall₂_chosen isChosen rest sameRest
      rw [List.zip_cons_cons, List.zip_cons_cons]
      cases chosen : isChosen child with
      | true =>
          simp only [List.filter_cons, chosen, if_true, List.map_cons]
          exact .cons same following
      | false =>
          simp only [List.filter_cons, chosen, Bool.false_eq_true, if_false]
          exact following

theorem alike_labelledChoices (settles : leeway.Settles root) (inside : root.Within element)
    (tag : Tag) (values : List String) :
    Query.Alike leeway
      (fun offer other => List.Forall₂ (leeway.SameForm Choice.toJson) offer.1 other.1 ∧
        List.Forall₂ (leeway.SameForm Choice.toJson) offer.2 other.2)
      (element.labelledChoices tag values : Query W (List Choice × List Choice))
      (element.labelledChoices tag values) := by
  have choices := Query.Alike.mapM (W := W) fun child (member : child ∈ element.childrenOf tag) =>
    alike_labelledChoice settles (within_of_mem_childrenOf inside member)
  refine choices.bind fun offered others same => .done ⟨same, ?_⟩
  exact forall₂_chosen (fun child => child.isChosen "checked" values) _ same

end Element

/-- Two controls of one type whose fields differ in nothing but indents. -/
structure Leeway.SameControl (leeway : Leeway) (control other : Control) : Prop where
  typeName : control.typeName = other.typeName
  fields : leeway.SameFields control.fields other.fields

namespace Element

variable {root element : Element}

theorem alike_control {tag : Tag} {control : Query W Control} (settles : leeway.Settles root)
    (inside : root.Within element) (found : element.control? tag = some control) :
    Query.Alike leeway leeway.SameControl control control := by
  cases tag
  case checkboxGroup =>
      obtain rfl := Option.some.inj found
      refine (alike_labelledChoices settles inside _ _).bind ?_
      rintro ⟨offered, chosen⟩ ⟨otherOffered, otherChosen⟩ ⟨sameOffered, sameChosen⟩
      refine .done ⟨rfl, .cons _ (congrArg some (Leeway.sameForm_items sameOffered)) ?_⟩
      refine .cons _ ?_ rfl
      rw [isEmpty_eq_of_forall₂ sameChosen]
      split
      · rfl
      · exact congrArg some (Leeway.sameForm_items sameChosen)
  case radioButtonGroup =>
      obtain rfl := Option.some.inj found
      refine (alike_labelledChoices settles inside _ _).bind ?_
      rintro ⟨offered, chosen⟩ ⟨otherOffered, otherChosen⟩ ⟨sameOffered, sameChosen⟩
      refine .done ⟨rfl, .cons _ (congrArg some (Leeway.sameForm_items sameOffered)) ?_⟩
      exact .cons _ (Leeway.sameForm_option (head?_of_forall₂ sameChosen)) rfl
  all_goals cases found
  all_goals exact .done ⟨rfl, rfl⟩

theorem alike_component? (settles : leeway.Settles root) (inside : root.Within element) :
    Query.Alike leeway (Option.Rel (leeway.SameForm Component.toJson))
      (element.component? : Query W (Option Component)) element.component? := by
  rw [component?]
  split
  · exact .done .none
  · next control interactive =>
      obtain ⟨tag, -, found⟩ := Option.bind_eq_some_iff.1 interactive
      refine (alike_control settles inside found).bind fun control other same => ?_
      refine (alike_confirmation? settles inside).bind fun dialog otherDialog sameDialog => ?_
      refine .done (.some (Leeway.SameFields.ofFields ?_))
      rw [same.typeName]
      have sameConfirm := Leeway.sameForm_option sameDialog
      exact .cons _ rfl (.cons _ rfl (same.fields.append (.cons _ sameConfirm rfl)))

/-- The results of options that agree agree as lists. -/
theorem forall₂_toList_append {related : α → α → Prop} {value other : Option α}
    {rest others : List α} (same : Option.Rel related value other)
    (sameRest : List.Forall₂ related rest others) :
    List.Forall₂ related (value.toList ++ rest) (other.toList ++ others) := by
  cases same with
  | none => exact sameRest
  | some same => exact .cons same sameRest

theorem alike_components (settles : leeway.Settles root) {elements : List Element}
    (inside : ∀ element ∈ elements, root.Within element) :
    Query.Alike leeway (List.Forall₂ (leeway.SameForm Component.toJson))
      (components elements : Query W (List Component)) (components elements) := by
  induction elements with
  | nil => exact .done .nil
  | cons element rest ih =>
      obtain ⟨first, others⟩ := List.forall_mem_cons.1 inside
      refine (alike_component? settles first).bind fun component other same => ?_
      exact (ih others).bind fun components otherComponents sameRest =>
        .done (forall₂_toList_append same sameRest)

theorem alike_accessory? (settles : leeway.Settles root) (inside : root.Within element) :
    Query.Alike leeway (Option.Rel (leeway.SameForm Accessory.toJson))
      (element.accessory? : Query W (Option Accessory)) element.accessory? := by
  rw [accessory?]
  split
  · exact .done (.some rfl)
  · refine (alike_component? settles inside).bind fun component other same => .done ?_
    cases same with
    | none => exact .none
    | some same => exact .some same

/-- A section has a text under all engines or under none, since all agree on which texts are
empty. -/
theorem alike_sectionText? (settles : leeway.Settles root) (inside : root.Within element) :
    Query.Alike leeway (Option.Rel (leeway.SameForm TextObject.toJson))
      (element.sectionText? : Query W (Option TextObject)) element.sectionText? := by
  rw [sectionText?]
  split
  · next child first =>
      have below := within_of_mem_childrenOf inside (List.mem_of_head? first)
      exact (alike_explicitText settles below).map fun _ _ => .some
  · refine (alike_mrkdwn settles inside).bind fun text other same => .done ?_
    rw [same.isEmpty_eq]
    split
    · exact .none
    · exact .some (Leeway.sameForm_mrkdwn same none)

/-- Two contents of a block whose fields differ in nothing but indents. -/
abbrev SameContent (leeway : Leeway) (content other : BlockContent) : Prop :=
  leeway.SameFields content.fields other.fields

theorem sameContent_section {text otherText : Option TextObject} {fields otherFields : List String}
    {accessory otherAccessory : Option Accessory}
    (sameText : Option.Rel (leeway.SameForm TextObject.toJson) text otherText)
    (sameFields : List.Forall₂ leeway.SameString fields otherFields)
    (sameAccessory : Option.Rel (leeway.SameForm Accessory.toJson) accessory otherAccessory) :
    SameContent leeway
      (.sectionText text (fields.map fun field => .mrkdwn field none) accessory)
      (.sectionText otherText (otherFields.map fun field => .mrkdwn field none)
        otherAccessory) := by
  have sameObjects : List.Forall₂ (leeway.SameForm TextObject.toJson)
      (fields.map fun field => .mrkdwn field none)
      (otherFields.map fun field => .mrkdwn field none) := by
    rw [List.forall₂_map_left_iff, List.forall₂_map_right_iff]
    exact sameFields.imp fun field other same => Leeway.sameForm_mrkdwn same none
  refine .cons _ rfl (.cons _ (Leeway.sameForm_option sameText) (.cons _ ?_
    (.cons _ (Leeway.sameForm_option sameAccessory) rfl)))
  rw [List.isEmpty_map, List.isEmpty_map, isEmpty_eq_of_forall₂ sameFields]
  split
  · rfl
  · exact congrArg some (Leeway.sameForm_items sameObjects)

theorem alike_sectionContent (settles : leeway.Settles root) (inside : root.Within element) :
    Query.Alike leeway (SameContent leeway) (element.sectionContent : Query W BlockContent)
      element.sectionContent := by
  have fields := Query.Alike.mapM (W := W) fun child (member : child ∈ element.childrenOf .field) =>
    alike_mrkdwn settles (within_of_mem_childrenOf inside member)
  rw [sectionContent]
  refine (alike_sectionText? settles inside).bind fun text otherText sameText => ?_
  refine fields.bind fun fields otherFields sameFields => ?_
  cases first : element.elements.find? isAccessory with
  | none => exact .done (sameContent_section sameText sameFields .none)
  | some child =>
      have below := inside.child (mem_elements.1 (List.mem_of_find?_eq_some first))
      exact (alike_accessory? settles below).bind fun accessory other same =>
        .done (sameContent_section sameText sameFields same)

end Element

namespace ContextSegment

variable {root element : Element} {nodes : List Node}

theorem alike_element? (settles : leeway.Settles root) (inside : root.Within element)
    {segment : ContextSegment} (isOf : segment.IsOf element.children) :
    Query.Alike leeway (Option.Rel (leeway.SameForm ContextElement.toJson))
      (segment.element? : Query W (Option ContextElement)) segment.element? := by
  cases segment with
  | image child => exact .done (.some rfl)
  | explicit child =>
      exact (Element.alike_explicitText settles (inside.child isOf.1)).map fun _ _ same =>
        .some same
  | run nodes =>
      refine (settles.render inside isOf).bind fun text other same => .done ?_
      rw [same.isEmpty_eq]
      split
      · exact .none
      · have sameString : leeway.SameString (String.ofList text) (String.ofList other) := by
          simpa [Leeway.SameString] using same
        exact .some (Leeway.sameForm_mrkdwn sameString none)

theorem alike_elements (settles : leeway.Settles root) (inside : root.Within element)
    {segments : List ContextSegment}
    (areOf : ∀ segment ∈ segments, segment.IsOf element.children) :
    Query.Alike leeway (List.Forall₂ (leeway.SameForm ContextElement.toJson))
      (elements segments : Query W (List ContextElement)) (elements segments) := by
  induction segments with
  | nil => exact .done .nil
  | cons segment rest ih =>
      obtain ⟨first, others⟩ := List.forall_mem_cons.1 areOf
      refine (alike_element? settles inside first).bind fun element other same => ?_
      exact (ih others).bind fun elements otherElements sameRest =>
        .done (Element.forall₂_toList_append same sameRest)

end ContextSegment

namespace Element

variable {root element : Element}

theorem alike_contextContent (settles : leeway.Settles root) (inside : root.Within element) :
    Query.Alike leeway (SameContent leeway) (element.contextContent : Query W BlockContent)
      element.contextContent := by
  have segments := ContextSegment.alike_elements (W := W) settles inside fun segment member =>
    ContextSegment.isOf_segments [] [] rfl member
  refine segments.map fun elements others same => ?_
  exact .cons _ rfl (.cons _ (congrArg some (Leeway.sameForm_items same)) rfl)

theorem alike_inputContent (settles : leeway.Settles root) (inside : root.Within element) :
    Query.Alike leeway (SameContent leeway) (element.inputContent : Query W BlockContent)
      element.inputContent := by
  rw [inputContent]
  cases first : element.elements.find? (·.tag?.any Tag.isInteractive) with
  | none => exact .done rfl
  | some child =>
      have below := inside.child (mem_elements.1 (List.mem_of_find?_eq_some first))
      refine (alike_component? settles below).bind fun component other same => .done ?_
      exact .cons _ rfl (.cons _ rfl (.cons _ (Leeway.sameForm_option same) rfl))

theorem alike_blockContent {tag : Tag} {content : Query W BlockContent}
    (settles : leeway.Settles root) (inside : root.Within element)
    (found : element.blockContent? tag = some content) :
    Query.Alike leeway (SameContent leeway) content content := by
  cases tag
  case sectionBlock =>
      obtain rfl := Option.some.inj found
      exact alike_sectionContent settles inside
  case actions =>
      obtain rfl := Option.some.inj found
      have below : ∀ child ∈ element.elements, root.Within child :=
        fun child member => inside.child (mem_elements.1 member)
      refine (alike_components settles below).map fun components others same => ?_
      exact .cons _ rfl (.cons _ (congrArg some (Leeway.sameForm_items same)) rfl)
  case context =>
      obtain rfl := Option.some.inj found
      exact alike_contextContent settles inside
  case input =>
      obtain rfl := Option.some.inj found
      exact alike_inputContent settles inside
  all_goals cases found
  all_goals exact .done rfl

theorem alike_block? (settles : leeway.Settles root) (inside : root.Within element) :
    Query.Alike leeway (Option.Rel (leeway.SameForm Block.toJson))
      (element.block? : Query W (Option Block)) element.block? := by
  rw [block?]
  split
  · exact .done .none
  · next content shown =>
      obtain ⟨tag, -, found⟩ := Option.bind_eq_some_iff.1 shown
      refine (alike_blockContent settles inside found).bind fun content other same => .done ?_
      exact .some (Leeway.SameFields.ofFields (same.append rfl))

theorem alike_blocksOf (settles : leeway.Settles root) {elements : List Element}
    (inside : ∀ element ∈ elements, root.Within element) :
    Query.Alike leeway (List.Forall₂ (leeway.SameForm Block.toJson))
      (blocksOf elements : Query W (List Block)) (blocksOf elements) := by
  induction elements with
  | nil => exact .done .nil
  | cons element rest ih =>
      obtain ⟨first, others⟩ := List.forall_mem_cons.1 inside
      refine (alike_block? settles first).bind fun block other same => ?_
      exact (ih others).bind fun blocks otherBlocks sameRest =>
        .done (forall₂_toList_append same sameRest)

/-- A tree compiles alike under all engines. -/
theorem alike_surface (settles : leeway.Settles root) :
    Query.Alike leeway (leeway.SameForm Surface.toJson) (root.surface : Query W Surface)
      root.surface := by
  have below : ∀ child ∈ root.elements, root.Within child :=
    fun child member => Within.root.child (mem_elements.1 member)
  rw [surface]
  refine (alike_blocksOf settles below).bind fun blocks others same => ?_
  have sameBlocks := congrArg some (Leeway.sameForm_items same)
  split
  · exact .done (Leeway.SameFields.ofFields (.cons _ rfl (.cons _ rfl (.cons _ sameBlocks rfl))))
  · exact .done (Leeway.SameFields.ofFields (.cons _ rfl (.cons _ sameBlocks rfl)))
  · exact .done (Leeway.sameForm_items same)

end Element

end MessageBlocks
