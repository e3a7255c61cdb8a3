import MessageBlocks.Compile.Surface
import MessageBlocks.Proofs.Lists
import MessageBlocks.Proofs.Markup.Content

/-!
# Lookalikes

Compilation reads an element through its tag and through the literals, flags and numbers of its
attributes, and goes on with its child elements and, where the grammar has text, with its text. Two
elements that read alike, and whose children do so in turn, stand for the same blocks. The text in
other elements is never looked at.
-/

namespace MessageBlocks

namespace Element

/-- Whether an element holds markup that is passed on verbatim. -/
def isVerbatim (element : Element) : Bool :=
  element.tag? == some .mrkdwn && element.isSet "raw"

/-- Whether the texts among the children of an element are rendered where they stand. -/
def showsText (element : Element) : Bool :=
  (element.tag?.any fun tag => tag.rule.children.contains .text) && !element.isVerbatim

theorem showsText_of_tag {element : Element} {tag : Tag} (tagged : element.tag? = some tag)
    (allowed : Tag.text ∈ tag.rule.children) (notMrkdwn : tag ≠ .mrkdwn) :
    element.showsText = true := by
  simp [showsText, isVerbatim, tagged, allowed, notMrkdwn]

/-- Two elements have the same tag, and no reading of an attribute tells them apart. -/
structure ReadsLike (old new : Element) : Prop where
  tag? : new.tag? = old.tag?
  literal? : new.literal? = old.literal?
  bool? : new.bool? = old.bool?
  int? : new.int? = old.int?
  listNumber? : Markup.numberAttribute? new.attributes = Markup.numberAttribute? old.attributes

/-- A relation that holds only between elements which compilation does not tell apart. -/
structure Lookalike (related : Element → Element → Prop) : Prop where
  reads : ∀ {old new}, related old new → old.ReadsLike new
  elements : ∀ {old new}, related old new → List.Forall₂ related old.elements new.elements
  children : ∀ {old new}, related old new → old.showsText = true →
    List.Forall₂ (Node.Both related) old.children new.children
  rawTexts : ∀ {old new}, related old new → old.isVerbatim = true →
    Node.rawTexts new.children = Node.rawTexts old.children

namespace ReadsLike

variable {old new : Element} (reads : old.ReadsLike new)

/-- Attributes are read through their values, where null means absent. -/
theorem of_get? (kind : new.kind = old.kind)
    (get? : ∀ name, new.attributes.get? name = old.attributes.get? name) : old.ReadsLike new where
  tag? := by rw [Element.tag?, kind, Element.tag?]
  literal? := by
    funext name
    rw [Element.literal?, Element.get?, get?, Element.literal?, Element.get?]
  bool? := by
    funext name
    rw [Element.bool?, Element.get?, get?, Element.bool?, Element.get?]
  int? := by
    funext name
    rw [Element.int?, Element.float?, Element.get?, get?, Element.int?, Element.float?,
      Element.get?]
  listNumber? := by
    funext name
    rw [Markup.numberAttribute?, get?, Markup.numberAttribute?]

include reads

theorem orderedKind :
    Markup.orderedKind new.attributes = Markup.orderedKind old.attributes := by
  have numbering := congrArg (Option.map Numbering.ofName) (congrFun reads.literal? "type")
  simp only [Element.literal?, Element.get?, Option.map_map] at numbering
  rw [Markup.orderedKind, Markup.orderedKind, reads.listNumber?]
  exact congrArg (fun numbering? : Option Numbering => ListKind.ordered (numbering?.getD .decimal)
    ((Markup.numberAttribute? old.attributes "start").getD 1)) numbering

theorem linkTarget? :
    Markup.linkTarget? new.attributes = Markup.linkTarget? old.attributes := by
  have target := congrArg (Option.map fun text : String => String.ofList (Text.trim text.toList))
    (congrFun reads.literal? "href")
  simp only [Element.literal?, Element.get?, Option.map_map] at target
  exact target

theorem timestamp? :
    Markup.timestamp? new.attributes = Markup.timestamp? old.attributes := by
  have moment := congrArg
    (Option.bind · fun text : String => (Timestamp.read? text.toList).map Int64.ofInt)
    (congrFun reads.literal? "datetime")
  simp only [Element.literal?, Element.get?, Option.bind_map] at moment
  exact moment

theorem ofElement? (tag : Tag) (children : List Markup) :
    Markup.ofElement? tag new.attributes children =
      Markup.ofElement? tag old.attributes children := by
  have fallback := congrFun reads.literal? "fallback"
  simp only [Element.literal?, Element.get?] at fallback
  simp only [Markup.ofElement?, reads.linkTarget?, reads.timestamp?, fallback]

theorem firstLiteral? : new.firstLiteral? = old.firstLiteral? := by
  funext names
  rw [Element.firstLiteral?, reads.literal?, Element.firstLiteral?]

theorem isSet : new.isSet = old.isSet := by
  funext name
  rw [Element.isSet, reads.bool?, Element.isSet]

theorem blockId? : new.blockId? = old.blockId? := by
  rw [Element.blockId?, reads.firstLiteral?, Element.blockId?]

theorem actionId? : new.actionId? = old.actionId? := by
  rw [Element.actionId?, reads.firstLiteral?, Element.actionId?]

theorem listAttribute : new.listAttribute = old.listAttribute := by
  funext name
  rw [Element.listAttribute, reads.literal?, Element.listAttribute]

theorem isMultiple : new.isMultiple = old.isMultiple := by
  rw [Element.isMultiple, reads.isSet, Element.isMultiple]

theorem selection {α : Type} (initial : List α) :
    new.selection initial = old.selection initial := by
  rw [Element.selection, reads.isMultiple, reads.int?, Element.selection]

theorem selectedValues : new.selectedValues = old.selectedValues := by
  rw [Element.selectedValues, reads.isMultiple, reads.listAttribute, reads.literal?,
    Element.selectedValues]

theorem entitySelect (entity : Entity) (name : String) :
    new.entitySelect entity name = old.entitySelect entity name := by
  simp only [Element.entitySelect, reads.literal?, reads.selection, reads.isMultiple,
    reads.listAttribute, reads.bool?]

theorem picker (kind : PickerKind) (name : String) :
    new.picker kind name = old.picker kind name := by
  rw [Element.picker, reads.literal?, reads.firstLiteral?, Element.picker]

theorem image : new.image = old.image := by
  rw [Element.image, reads.literal?, Element.image]

theorem viewData : new.viewData = old.viewData := by
  rw [Element.viewData, reads.literal?, Element.viewData]

end ReadsLike

end Element

namespace Node

theorem markup?_element (element : Element) :
    markup? (.element element) =
      match element.tag? with
      | some .unorderedList => some (.list .unordered (listItems element.children))
      | some .orderedList =>
          some (.list (Markup.orderedKind element.attributes) (listItems element.children))
      | some tag => Markup.ofElement? tag element.attributes (markup element.children)
      | none => none := by
  cases element
  rfl

theorem listItem?_element (element : Element) :
    listItem? (.element element) =
      if element.tag? = some .listItem then
        some ⟨Markup.numberAttribute? element.attributes "value", markup element.children⟩
      else none := by
  cases element
  rfl

/-- A list keeps of its children the elements only. -/
theorem listItems_eq_elements (nodes : List Node) :
    listItems nodes = (nodes.filterMap element?).filterMap (listItem? ∘ .element) := by
  rw [listItems_eq_filterMap, List.filterMap_filterMap]
  congr 1
  funext node
  cases node <;> rfl

end Node

/-- The text below an element becomes markup only where the grammar has text. -/
theorem Markup.ofElement?_of_textless {tag : Tag}
    (textless : Tag.text ∉ tag.rule.children ∨ tag = .mrkdwn) (attributes : Attributes)
    (children others : List Markup) :
    ofElement? tag attributes others = ofElement? tag attributes children := by
  rcases textless with absent | rfl
  · cases tag <;> first | rfl | exact absurd (by decide) absent
  · rfl

namespace Element.Lookalike

/-- Elements whose children are pairwise the same or related have the same text below them. -/
theorem rawTexts_of_children {related : Element → Element → Prop}
    (children : ∀ {old new}, related old new →
      List.Forall₂ (Node.Both related) old.children new.children) (old : Element) :
    ∀ new, related old new → Node.rawTexts new.children = Node.rawTexts old.children := by
  induction old using Element.induction with
  | step old ih =>
      intro new both
      have pairs := children both
      generalize old.children = nodes, new.children = others at ih pairs ⊢
      induction pairs with
      | nil => rfl
      | cons first _ rest =>
          rw [Node.rawTexts, Node.rawTexts, rest fun child member => ih child (.tail _ member)]
          cases first with
          | text content => rfl
          | element both =>
              rw [Node.rawText_element, Node.rawText_element, ih _ (.head _) _ both]

/-- Elements that read alike, with children that are pairwise the same or related in turn. -/
theorem of_children {related : Element → Element → Prop}
    (reads : ∀ {old new}, related old new → old.ReadsLike new)
    (children : ∀ {old new}, related old new →
      List.Forall₂ (Node.Both related) old.children new.children) : Lookalike related where
  reads := reads
  elements both := Node.Both.elements (children both)
  children both _ := children both
  rawTexts both _ := rawTexts_of_children children _ _ both

variable {related : Element → Element → Prop} (like : Lookalike related)
  {old new : Element} (both : related old new)

/-! Markup. -/

include like in
/-- The markup of an element, and the item that it is in a list. -/
theorem markup_and_listItem (old : Element) : ∀ new, related old new →
    Node.markup? (.element new) = Node.markup? (.element old) ∧
      Node.listItem? (.element new) = Node.listItem? (.element old) := by
  induction old using Element.induction with
  | step old ih =>
      intro new both
      have reads := like.reads both
      have items : Node.listItems new.children = Node.listItems old.children := by
        rw [Node.listItems_eq_elements, Node.listItems_eq_elements]
        have inside : ∀ child ∈ old.elements, .element child ∈ old.children :=
          fun child member => mem_elements.1 member
        have pairs := (List.forall₂_and_left _ _).2 ⟨inside, like.elements both⟩
        exact filterMap_eq_of_forall₂ pairs fun child other found =>
          (ih child found.1 other found.2).2
      have markup (shown : old.showsText = true) :
          Node.markup new.children = Node.markup old.children := by
        rw [Node.markup_eq_filterMap, Node.markup_eq_filterMap]
        have inside : ∀ node ∈ old.children, node ∈ old.children := fun _ member => member
        have pairs := (List.forall₂_and_left _ _).2 ⟨inside, like.children both shown⟩
        apply filterMap_eq_of_forall₂ pairs
        rintro node other ⟨member, isSame⟩
        cases isSame with
        | text content => rfl
        | element both => exact (ih _ member _ both).1
      constructor
      · rw [Node.markup?_element, Node.markup?_element, reads.tag?, reads.orderedKind, items]
        split
        · rfl
        · rfl
        · next tag _ _ tagged =>
            rw [reads.ofElement?]
            by_cases shown : Tag.text ∈ tag.rule.children ∧ tag ≠ .mrkdwn
            · rw [markup (showsText_of_tag tagged shown.1 shown.2)]
            · apply Markup.ofElement?_of_textless
              rwa [not_and_or, not_not] at shown
        · rfl
      · rw [Node.listItem?_element, Node.listItem?_element, reads.tag?, reads.listNumber?]
        split
        · next tagged => rw [markup (showsText_of_tag tagged (by decide) (by decide))]
        · rfl

include like in
/-- The markup of nodes that are the same or related. -/
theorem markupAll {nodes others : List Node}
    (pairs : List.Forall₂ (Node.Both related) nodes others) :
    Node.markup others = Node.markup nodes := by
  rw [Node.markup_eq_filterMap, Node.markup_eq_filterMap]
  apply filterMap_eq_of_forall₂ pairs
  intro node other isSame
  cases isSame with
  | text content => rfl
  | element both => exact (like.markup_and_listItem _ _ both).1

variable {W : Type} [Width W]

include like both

theorem markup (shown : old.showsText = true) :
    Node.markup new.children = Node.markup old.children :=
  like.markupAll (like.children both shown)

/-! The attributes of an element and its child elements. -/

theorem childrenOf (tag : Tag) :
    List.Forall₂ (fun child other => child.tag? = some tag ∧ related child other)
      (old.childrenOf tag) (new.childrenOf tag) := by
  have pairs : List.Forall₂ related (old.childrenOf tag) (new.childrenOf tag) := by
    apply forall₂_filter (like.elements both)
    intro child other both
    rw [(like.reads both).tag?]
  refine (List.forall₂_and_left _ _).2 ⟨fun child member => ?_, pairs⟩
  simpa using (List.mem_filter.1 member).2

/-! Composition objects. -/

theorem plainText (shown : old.showsText = true) : new.plainText = old.plainText := by
  rw [Element.plainText, like.markup both shown, Element.plainText]

theorem mrkdwn (shown : old.showsText = true) : (new.mrkdwn : Query W String) = old.mrkdwn := by
  rw [Element.mrkdwn, like.markup both shown, Element.mrkdwn]

theorem explicitText (tagged : old.tag? = some .mrkdwn) :
    (new.explicitText : Query W TextObject) = old.explicitText := by
  have reads := like.reads both
  rw [Element.explicitText, Element.explicitText, reads.isSet, reads.bool?]
  by_cases isRaw : old.isSet "raw" = true
  · have verbatim : old.isVerbatim = true := by simp [isVerbatim, tagged, isRaw]
    rw [if_pos isRaw, if_pos isRaw, like.rawTexts both verbatim]
  · have allowed : Tag.text ∈ Tag.mrkdwn.rule.children := by decide
    have shown : old.showsText = true := by simp [showsText, isVerbatim, tagged, allowed, isRaw]
    rw [if_neg isRaw, if_neg isRaw, like.mrkdwn both shown]

theorem confirmation (tagged : old.tag? = some .confirm) :
    (new.confirmation : Query W Confirmation) = old.confirmation := by
  have reads := like.reads both
  have shown := showsText_of_tag tagged (by decide) (by decide)
  rw [Element.confirmation, like.mrkdwn both shown, reads.literal?, Element.confirmation]

theorem confirmation? :
    (new.confirmation? : Query W (Option Confirmation)) = old.confirmation? := by
  have first := head?_of_forall₂ (like.childrenOf both .confirm)
  rw [Element.confirmation?, Element.confirmation?]
  generalize (old.childrenOf .confirm).head? = child, (new.childrenOf .confirm).head? = other
    at first ⊢
  cases first with
  | none => rfl
  | some found => exact congrArg (some <$> ·) (like.confirmation found.2 found.1)

theorem choiceValue (shown : old.showsText = true) : new.choiceValue = old.choiceValue := by
  have reads := like.reads both
  rw [Element.choiceValue, reads.literal?, like.plainText both shown, Element.choiceValue]

theorem option (tagged : old.tag? = some .option) : new.option = old.option := by
  have reads := like.reads both
  have shown := showsText_of_tag tagged (by decide) (by decide)
  rw [Element.option, like.plainText both shown, like.choiceValue both shown, reads.literal?,
    Element.option]

theorem options : (new.childrenOf .option).map Element.option =
    (old.childrenOf .option).map Element.option :=
  map_eq_of_forall₂ (like.childrenOf both .option) fun _ _ found => like.option found.2 found.1

theorem optionGroup : new.optionGroup = old.optionGroup := by
  have reads := like.reads both
  rw [Element.optionGroup, reads.literal?, like.options both, Element.optionGroup]

theorem overflowChoice (tagged : old.tag? = some .overflowItem) :
    new.overflowChoice = old.overflowChoice := by
  have reads := like.reads both
  have shown := showsText_of_tag tagged (by decide) (by decide)
  rw [Element.overflowChoice, like.plainText both shown, like.choiceValue both shown,
    reads.literal?, Element.overflowChoice]

theorem labelledChoice (shown : old.showsText = true) :
    (new.labelledChoice : Query W Choice) = old.labelledChoice := by
  have reads := like.reads both
  rw [Element.labelledChoice, like.mrkdwn both shown, like.choiceValue both shown,
    reads.literal?, Element.labelledChoice]

/-! Components. -/

theorem isChosen (shown : old.showsText = true) : new.isChosen = old.isChosen := by
  have reads := like.reads both
  funext flag values
  rw [Element.isChosen, reads.isSet, like.choiceValue both shown, Element.isChosen]

theorem menuOptions :
    List.Forall₂ (fun child other => child.tag? = some .option ∧ related child other)
      old.menuOptions new.menuOptions := by
  have groups := like.childrenOf both .optionGroup
  rw [Element.menuOptions, Element.menuOptions, isEmpty_eq_of_forall₂ groups]
  split
  · exact like.childrenOf both .option
  · exact List.rel_flatMap groups fun child other found => like.childrenOf found.2 .option

theorem staticSelect : new.staticSelect = old.staticSelect := by
  have reads := like.reads both
  have groups := like.childrenOf both .optionGroup
  have grouped : (new.childrenOf .optionGroup).map Element.optionGroup =
      (old.childrenOf .optionGroup).map Element.optionGroup :=
    map_eq_of_forall₂ groups fun _ _ found => like.optionGroup found.2
  have flat : new.menuOptions.map Element.option = old.menuOptions.map Element.option :=
    map_eq_of_forall₂ (like.menuOptions both) fun _ _ found => like.option found.2 found.1
  have chosen (values : List String) :
      (new.menuOptions.filter (·.isChosen "selected" values)).map Element.option =
        (old.menuOptions.filter (·.isChosen "selected" values)).map Element.option := by
    apply map_eq_of_forall₂ (forall₂_filter (like.menuOptions both) ?_)
    · exact fun _ _ found => like.option found.2 found.1
    · intro child other found
      rw [like.isChosen found.2 (showsText_of_tag found.1 (by decide) (by decide))]
  simp only [Element.staticSelect, isEmpty_eq_of_forall₂ groups, grouped, flat, chosen,
    reads.selectedValues, reads.literal?, reads.selection]

theorem externalSelect : new.externalSelect = old.externalSelect := by
  have reads := like.reads both
  simp only [Element.externalSelect, reads.literal?, reads.int?, reads.selection,
    like.options both]

omit both in
theorem chosen {children others : List Element}
    (pairs : List.Forall₂ (fun child other => child.showsText = true ∧ related child other)
      children others) (values : List String) (choices : List Choice) :
    ((others.zip choices).filter fun offer => offer.1.isChosen "checked" values).map Prod.snd =
      ((children.zip choices).filter
        fun offer => offer.1.isChosen "checked" values).map Prod.snd := by
  induction pairs generalizing choices with
  | nil => rfl
  | cons first _ ih =>
      cases choices with
      | nil => rfl
      | cons choice rest =>
          rw [List.zip_cons_cons, List.zip_cons_cons, List.filter_cons, List.filter_cons,
            like.isChosen first.2 first.1]
          split
          · rw [List.map_cons, List.map_cons, ih]
          · exact ih rest

theorem labelledChoices (tag : Tag) (allowed : Tag.text ∈ tag.rule.children)
    (notMrkdwn : tag ≠ .mrkdwn) (values : List String) :
    (new.labelledChoices tag values : Query W (List Choice × List Choice)) =
      old.labelledChoices tag values := by
  have pairs := (like.childrenOf both tag).imp fun child other found =>
    And.intro (showsText_of_tag found.1 allowed notMrkdwn) found.2
  have choices : (new.childrenOf tag).mapM Element.labelledChoice =
      ((old.childrenOf tag).mapM Element.labelledChoice : Query W (List Choice)) :=
    mapM_eq_of_forall₂ pairs fun _ _ found => like.labelledChoice found.2 found.1
  simp only [Element.labelledChoices, choices, like.chosen pairs]

theorem textInput (shown : old.showsText = true) : new.textInput = old.textInput := by
  have reads := like.reads both
  simp only [Element.textInput, like.plainText both shown, reads.literal?, reads.int?]

theorem overflowChoices : (new.childrenOf .overflowItem).map Element.overflowChoice =
    (old.childrenOf .overflowItem).map Element.overflowChoice :=
  map_eq_of_forall₂ (like.childrenOf both .overflowItem) fun _ _ found =>
    like.overflowChoice found.2 found.1

theorem control? {tag : Tag} (tagged : old.tag? = some tag) :
    (new.control? tag : Option (Query W Control)) = old.control? tag := by
  have reads := like.reads both
  cases tag
  case button | textarea =>
      have shown := showsText_of_tag tagged (by decide) (by decide)
      simp only [Element.control?, like.plainText both shown, reads.literal?,
        like.textInput both shown]
  case checkboxGroup =>
      simp only [Element.control?, Element.checkboxes, reads.listAttribute,
        like.labelledChoices both .checkbox (by decide) (by decide)]
  case radioButtonGroup =>
      simp only [Element.control?, Element.radioButtons, reads.literal?,
        like.labelledChoices both .radioButton (by decide) (by decide)]
  all_goals
    simp only [Element.control?, like.staticSelect both, like.externalSelect both,
      reads.entitySelect, like.overflowChoices both, reads.picker]

theorem component? : (new.component? : Query W (Option Component)) = old.component? := by
  have reads := like.reads both
  rw [Element.component?, Element.component?, reads.tag?, reads.actionId?, like.confirmation? both]
  cases tagged : old.tag? with
  | none => rfl
  | some tag => rw [Option.bind_some, Option.bind_some, like.control? both tagged]

omit both in
theorem components {elements others : List Element}
    (pairs : List.Forall₂ related elements others) :
    (Element.components others : Query W (List Component)) = Element.components elements := by
  induction pairs with
  | nil => rfl
  | cons first _ ih =>
      rw [Element.components, Element.components, like.component? first, ih]

/-! Blocks. -/

theorem sectionText? (tagged : old.tag? = some .sectionBlock) :
    (new.sectionText? : Query W (Option TextObject)) = old.sectionText? := by
  have first := head?_of_forall₂ (like.childrenOf both .mrkdwn)
  have shown := showsText_of_tag tagged (by decide) (by decide)
  rw [Element.sectionText?, Element.sectionText?, like.mrkdwn both shown]
  generalize (old.childrenOf .mrkdwn).head? = child, (new.childrenOf .mrkdwn).head? = other
    at first ⊢
  cases first with
  | none => rfl
  | some found => exact congrArg (some <$> ·) (like.explicitText found.2 found.1)

theorem accessory? : (new.accessory? : Query W (Option Accessory)) = old.accessory? := by
  have reads := like.reads both
  rw [Element.accessory?, reads.tag?, reads.image, like.component? both, Element.accessory?]

theorem sectionContent (tagged : old.tag? = some .sectionBlock) :
    (new.sectionContent : Query W BlockContent) = old.sectionContent := by
  have fields : (new.childrenOf .field).mapM Element.mrkdwn =
      ((old.childrenOf .field).mapM Element.mrkdwn : Query W (List String)) :=
    mapM_eq_of_forall₂ (like.childrenOf both .field) fun _ _ found =>
      like.mrkdwn found.2 (showsText_of_tag found.1 (by decide) (by decide))
  have beside : Option.Rel related (old.elements.find? isAccessory)
      (new.elements.find? isAccessory) := by
    apply find?_of_forall₂ (like.elements both)
    intro child other both
    rw [isAccessory, (like.reads both).tag?, isAccessory]
  rw [Element.sectionContent, Element.sectionContent, like.sectionText? both tagged, fields]
  generalize old.elements.find? isAccessory = child, new.elements.find? isAccessory = other
    at beside ⊢
  cases beside with
  | none => rfl
  | some found => simp only [like.accessory? found]

theorem inputContent : (new.inputContent : Query W BlockContent) = old.inputContent := by
  have reads := like.reads both
  have inside : Option.Rel related (old.elements.find? (·.tag?.any Tag.isInteractive))
      (new.elements.find? (·.tag?.any Tag.isInteractive)) := by
    apply find?_of_forall₂ (like.elements both)
    intro child other both
    rw [(like.reads both).tag?]
  rw [Element.inputContent, Element.inputContent, reads.literal?, reads.bool?]
  generalize old.elements.find? (·.tag?.any Tag.isInteractive) = child,
    new.elements.find? (·.tag?.any Tag.isInteractive) = other at inside ⊢
  cases inside with
  | none => rfl
  | some found => simp only [like.component? found]

end Element.Lookalike

/-- Two segments are of one kind, with related elements or with nodes that are pairwise the same
or related. -/
inductive ContextSegment.Both (related : Element → Element → Prop) :
    ContextSegment → ContextSegment → Prop where
  | image {old new : Element} (both : related old new) : Both related (.image old) (.image new)
  | explicit {old new : Element} (tagged : old.tag? = some .mrkdwn) (both : related old new) :
      Both related (.explicit old) (.explicit new)
  | run {nodes others : List Node} (pairs : List.Forall₂ (Node.Both related) nodes others) :
      Both related (.run nodes) (.run others)

namespace Element.Lookalike

variable {related : Element → Element → Prop} (like : Lookalike related) {W : Type} [Width W]

include like

theorem segment? {node other : Node} (isSame : Node.Both related node other) :
    Option.Rel (ContextSegment.Both related) node.segment? other.segment? := by
  cases isSame with
  | text content => exact .none
  | element both =>
      rw [Node.segment?, Node.segment?, (like.reads both).tag?]
      split
      · exact .some (.image both)
      · next tagged => exact .some (.explicit tagged both)
      · exact .none

theorem segments {nodes others : List Node}
    (pairs : List.Forall₂ (Node.Both related) nodes others) :
    ∀ {pending waiting : List Node}, List.Forall₂ (Node.Both related) pending waiting →
      List.Forall₂ (ContextSegment.Both related) (Node.segments pending nodes)
        (Node.segments waiting others) := by
  induction pairs with
  | nil => exact fun run => .cons (.run run) .nil
  | @cons node other _ _ first _ ih =>
      intro pending waiting run
      have alone := like.segment? first
      rw [Node.segments, Node.segments]
      generalize node.segment? = segment, other.segment? = twin at alone ⊢
      cases alone with
      | none => exact ih (List.rel_append run (.cons first .nil))
      | some found => exact .cons (.run run) (.cons found (ih .nil))

theorem segmentElement? {segment other : ContextSegment}
    (isSame : ContextSegment.Both related segment other) :
    (other.element? : Query W (Option ContextElement)) = segment.element? := by
  cases isSame with
  | image both =>
      rw [ContextSegment.element?, (like.reads both).image, ContextSegment.element?]
  | explicit tagged both =>
      rw [ContextSegment.element?, like.explicitText both tagged, ContextSegment.element?]
  | run pairs => rw [ContextSegment.element?, like.markupAll pairs, ContextSegment.element?]

theorem segmentElements {segments others : List ContextSegment}
    (pairs : List.Forall₂ (ContextSegment.Both related) segments others) :
    (ContextSegment.elements others : Query W (List ContextElement)) =
      ContextSegment.elements segments := by
  induction pairs with
  | nil => rfl
  | cons first _ ih =>
      rw [ContextSegment.elements, ContextSegment.elements, like.segmentElement? first, ih]

variable {old new : Element} (both : related old new)

include both

theorem contextContent (tagged : old.tag? = some .context) :
    (new.contextContent : Query W BlockContent) = old.contextContent := by
  have shown := showsText_of_tag tagged (by decide) (by decide)
  rw [Element.contextContent, Element.contextContent,
    like.segmentElements (like.segments (like.children both shown) .nil)]

theorem blockContent? {tag : Tag} (tagged : old.tag? = some tag) :
    (new.blockContent? tag : Option (Query W BlockContent)) = old.blockContent? tag := by
  have reads := like.reads both
  cases tag
  case sectionBlock =>
      rw [Element.blockContent?, like.sectionContent both tagged, Element.blockContent?]
  case context => rw [Element.blockContent?, like.contextContent both tagged, Element.blockContent?]
  case header =>
      have shown := showsText_of_tag tagged (by decide) (by decide)
      rw [Element.blockContent?, like.plainText both shown, Element.blockContent?]
  case actions =>
      rw [Element.blockContent?, like.components (like.elements both), Element.blockContent?]
  all_goals
    simp only [Element.blockContent?, like.inputContent both, reads.image, reads.literal?]

theorem block? : (new.block? : Query W (Option Block)) = old.block? := by
  have reads := like.reads both
  rw [Element.block?, Element.block?, reads.tag?, reads.blockId?]
  cases tagged : old.tag? with
  | none => rfl
  | some tag => rw [Option.bind_some, Option.bind_some, like.blockContent? both tagged]

omit both in
theorem blocksOf {elements others : List Element}
    (pairs : List.Forall₂ related elements others) :
    (Element.blocksOf others : Query W (List Block)) = Element.blocksOf elements := by
  induction pairs with
  | nil => rfl
  | cons first _ ih => rw [Element.blocksOf, Element.blocksOf, like.block? first, ih]

/-- Lookalikes stand for the same surface. -/
theorem surface_eq : (new.surface : Query W Surface) = old.surface := by
  have reads := like.reads both
  rw [surface, surface, blocks, blocks, like.blocksOf (like.elements both), reads.tag?,
    reads.literal?, reads.bool?, reads.viewData]

end Element.Lookalike

end MessageBlocks
