import MessageBlocks.Layout.Reference
import MessageBlocks.Proofs.Compile.Provenance

/-!
# Initial choices

A menu of options and a group of check boxes or radio buttons list the choices that they offer, and
those of them that are selected at first are written once more. The client refuses a component in
which a choice is selected that is not listed. Here both are read off the JSON of the component:
what is listed are all choices that the element offers, and what is selected are some of these very
objects, in the order of the document.
-/

namespace MessageBlocks

open Json

namespace Json

/-- The items of an array in an object, none if there is no such array. -/
def itemsOf (name : String) (value : Json) : List Json :=
  ((value.member? name).bind items?).getD []

/-- The choices that a component lists: its options, and those of its groups of options. -/
def listedChoices (component : Json) : List Json :=
  component.itemsOf "options" ++ (component.itemsOf "option_groups").flatMap (itemsOf "options")

/-- The choices that are selected in a component at first. -/
def initialChoices (component : Json) : List Json :=
  (component.member? "initial_option").toList ++ component.itemsOf "initial_options"

end Json

/-- How an element offers choices. -/
structure ChoiceMenu where
  /-- The type name of the component. -/
  typeName : String
  /-- Whether several choices may be made. -/
  isMultiple : Bool
  /-- Whether the choices are in groups. -/
  isGrouped : Bool
  /-- The elements for the choices, in the order of the document. -/
  offered : List Element
  /-- The attribute with which a choice is selected by itself. -/
  flag : String
  /-- The attribute of the element with the values that it selects. -/
  named : String
  /-- What an element for a choice stands for. -/
  choice : Element → Choice

variable {W : Type} [Width W]

/-- How an element with a tag offers choices. -/
def Element.choiceMenu? (engine : Engine W) (element : Element) : Tag → Option ChoiceMenu
  | .select => some {
      typeName := if element.isMultiple then "multi_static_select" else "static_select"
      isMultiple := element.isMultiple
      isGrouped := !(element.childrenOf .optionGroup).isEmpty
      offered := element.menuOptions
      flag := "selected"
      named := "value"
      choice := Element.option }
  | .checkboxGroup => some {
      typeName := "checkboxes"
      isMultiple := true
      isGrouped := false
      offered := element.childrenOf .checkbox
      flag := "checked"
      named := "values"
      choice := fun child => child.labelledChoice.answer engine }
  | .radioButtonGroup => some {
      typeName := "radio_buttons"
      isMultiple := false
      isGrouped := false
      offered := element.childrenOf .radioButton
      flag := "checked"
      named := "value"
      choice := fun child => child.labelledChoice.answer engine }
  | _ => none

namespace ChoiceMenu

/-- Whether a choice is selected at first: it says so itself, or its value is named by the element,
as one of a list of values if several choices may be made. -/
def Selects (menu : ChoiceMenu) (element child : Element) : Prop :=
  child.bool? menu.flag = some true ∨
    if menu.isMultiple then child.choiceValue ∈ element.listAttribute menu.named
    else element.literal? menu.named = some child.choiceValue

instance (menu : ChoiceMenu) (element : Element) : DecidablePred (menu.Selects element) :=
  fun child => inferInstanceAs (Decidable (child.bool? menu.flag = some true ∨
    if menu.isMultiple then child.choiceValue ∈ element.listAttribute menu.named
    else element.literal? menu.named = some child.choiceValue))

/-- The elements for the choices that are selected at first. -/
def picked (menu : ChoiceMenu) (element : Element) : List Element :=
  menu.offered.filter (menu.Selects element)

/-- The object for a choice. -/
def toJson (menu : ChoiceMenu) : Element → Json :=
  Choice.toJson ∘ menu.choice

/-- The component lists the choices of the menu, in groups or without, and writes those that are
selected at first: as a list that is not empty, or as the first one. -/
structure IsShownBy (menu : ChoiceMenu) (element : Element) (component : Json) : Prop where
  typed : component.member? "type" = some (.string menu.typeName)
  options : (component.member? "options").isSome = !menu.isGrouped
  groups : (component.member? "option_groups").isSome = menu.isGrouped
  listed : component.listedChoices = menu.offered.map menu.toJson
  several : component.member? "initial_options" =
    if menu.isMultiple ∧ menu.picked element ≠ [] then
      some (.array ((menu.picked element).map menu.toJson))
    else none
  one : component.member? "initial_option" =
    if menu.isMultiple then none else (menu.picked element).head?.map menu.toJson

end ChoiceMenu

/-! ## Controls with choices -/

namespace MenuChoices

/-- All choices of a menu, those of its groups one group after the other. -/
def all : MenuChoices → List Choice
  | flat choices => choices
  | grouped groups => groups.flatMap ChoiceGroup.choices

def isGrouped : MenuChoices → Bool
  | flat _ => false
  | grouped _ => true

end MenuChoices

/-- The choices that a control lists and those that it selects at first. -/
def Control.offer? : Control → Option (MenuChoices × Selection Choice)
  | staticSelect _ choices selection => some (choices, selection)
  | checkboxes choices initial => some (.flat choices, .several initial none)
  | radioButtons choices initial => some (.flat choices, .one initial)
  | _ => none

section Offers

variable {component : Component} {choices : MenuChoices} {selection : Selection Choice}

/-- The members of a component about its choices are those of its listed and selected choices. -/
theorem Component.member?_of_offer? (offers : component.control.offer? = some (choices, selection))
    {name : String}
    (among : name ∈ ["options", "option_groups", "initial_option", "initial_options"]) :
    component.toJson.member? name =
      field? name [choices.field, selection.initialField "initial_option" Choice.toJson] := by
  obtain ⟨control, actionId, confirmation⟩ := component
  rw [toJson, member?_ofFields]
  simp only [List.mem_cons, List.not_mem_nil, or_false] at among
  cases control with
  | staticSelect placeholder offered initial =>
      cases offers
      cases selection <;> rcases among with rfl | rfl | rfl | rfl <;>
        simp [Control.fields, field?, Selection.limitField]
  | checkboxes offered initial =>
      cases offers
      rcases among with rfl | rfl | rfl | rfl <;>
        simp [Control.fields, field?, MenuChoices.field, Selection.initialField]
  | radioButtons offered initial =>
      cases offers
      rcases among with rfl | rfl | rfl | rfl <;>
        simp [Control.fields, field?, MenuChoices.field, Selection.initialField]
  | _ => cases offers

theorem Component.listedChoices_of_offer?
    (offers : component.control.offer? = some (choices, selection)) :
    component.toJson.listedChoices = choices.all.map Choice.toJson := by
  have options := member?_of_offer? offers (show "options" ∈ _ by decide)
  have groups := member?_of_offer? offers (show "option_groups" ∈ _ by decide)
  have ofGroup (group : ChoiceGroup) :
      group.toJson.itemsOf "options" = group.choices.map Choice.toJson := by
    simp [itemsOf, ChoiceGroup.toJson, member?_ofFields, field?, items?]
  rw [listedChoices, itemsOf, itemsOf, options, groups]
  cases choices <;> cases selection <;>
    simp [MenuChoices.field, Selection.initialField, field?, items?, MenuChoices.all,
      List.flatMap_map, List.map_flatMap, ofGroup]

end Offers

namespace ChoiceMenu

variable {menu : ChoiceMenu} {element : Element} {component : Component} {choices : MenuChoices}
  {limit : Option Int}

/-- What is selected of a menu at first. -/
def selection (menu : ChoiceMenu) (element : Element) (limit : Option Int) : Selection Choice :=
  if menu.isMultiple then .several ((menu.picked element).map menu.choice) limit
  else .one ((menu.picked element).head?.map menu.choice)

/-- The control offers the choices of the menu, in groups or without, and selects some at first. -/
structure IsOfferedBy (menu : ChoiceMenu) (element : Element) (control : Control)
    (choices : MenuChoices) (limit : Option Int) : Prop where
  typeName : control.typeName = menu.typeName
  offer : control.offer? = some (choices, menu.selection element limit)
  all : choices.all = menu.offered.map menu.choice
  isGrouped : choices.isGrouped = menu.isGrouped

theorem IsOfferedBy.isShownBy
    (offered : menu.IsOfferedBy element component.control choices limit) :
    menu.IsShownBy element component.toJson := by
  obtain ⟨typeName, offer, all, grouped⟩ := offered
  constructor
  case typed => rw [component.member?_type, typeName]
  case listed =>
    rw [Component.listedChoices_of_offer? offer, all, List.map_map]
    rfl
  -- each of the other members is one of two fields, or neither
  all_goals
    rw [Component.member?_of_offer? offer (by decide), selection]
    cases choices <;> cases menu.isMultiple <;>
      simp [field?, MenuChoices.field, Selection.initialField, MenuChoices.isGrouped, ← grouped,
        toJson]

/-- The first of the selected choices, or all of them, are among the listed ones. -/
theorem IsShownBy.initialChoices_subset {component : Json}
    (shown : menu.IsShownBy element component) :
    component.initialChoices ⊆ component.listedChoices := by
  have pickedListed : (menu.picked element).map menu.toJson ⊆ component.listedChoices := by
    rw [shown.listed]
    exact List.map_subset _ List.filter_sublist.subset
  intro initial member
  rw [initialChoices, itemsOf, shown.one, shown.several] at member
  apply pickedListed
  cases multiple : menu.isMultiple with
  | true =>
      by_cases nonePicked : menu.picked element = []
      · simp [multiple, nonePicked] at member
      · simpa [multiple, nonePicked, items?] using member
  | false =>
      obtain ⟨child, first, rfl⟩ : ∃ child, (menu.picked element).head? = some child ∧
          menu.toJson child = initial := by simpa [multiple] using member
      exact List.mem_map_of_mem (List.mem_of_head? first)

/-- The values that the element names, of which there is at most one if one choice may be made. -/
def values (menu : ChoiceMenu) (element : Element) : List String :=
  if menu.isMultiple then element.listAttribute menu.named
  else (element.literal? menu.named).toList

theorem selects_iff (menu : ChoiceMenu) (element child : Element) :
    menu.Selects element child ↔ child.isChosen menu.flag (menu.values element) = true := by
  have flagged : child.isSet menu.flag = true ↔ child.bool? menu.flag = some true := by
    rw [Element.isSet]
    cases child.bool? menu.flag <;> simp
  rw [Selects, Element.isChosen, Bool.or_eq_true, flagged, List.contains_iff_mem, values]
  cases menu.isMultiple <;> simp

theorem picked_eq (menu : ChoiceMenu) (element : Element) :
    menu.picked element =
      menu.offered.filter fun child => child.isChosen menu.flag (menu.values element) := by
  refine List.filter_congr fun child _ => ?_
  rw [Bool.eq_iff_iff, decide_eq_true_iff]
  exact selects_iff menu element child

end ChoiceMenu

namespace Element

variable {element : Element} {engine : Engine W} {tag : Tag} {menu : ChoiceMenu}

theorem isOfferedBy_staticSelect (isMenu : element.choiceMenu? engine .select = some menu) :
    menu.IsOfferedBy element element.staticSelect
      (if (element.childrenOf .optionGroup).isEmpty then .flat (element.menuOptions.map option)
        else .grouped ((element.childrenOf .optionGroup).map optionGroup))
      (element.int? "maxSelectedItems") := by
  obtain rfl := Option.some.inj isMenu
  constructor
  case typeName =>
    rw [staticSelect, Control.typeName, Element.selection]
    cases element.isMultiple <;> rfl
  case offer =>
    rw [staticSelect, Control.offer?, Element.selection, ChoiceMenu.selection,
      ChoiceMenu.picked_eq, List.head?_map]
    rfl
  case all =>
    rw [menuOptions]
    split
    · rfl
    · simp [MenuChoices.all, optionGroup, List.flatMap_map, List.map_flatMap]
  case isGrouped =>
    cases (element.childrenOf .optionGroup).isEmpty <;> rfl

theorem isOfferedBy_checkboxes (isMenu : element.choiceMenu? engine .checkboxGroup = some menu) :
    menu.IsOfferedBy element (element.checkboxes.answer engine)
      (.flat (menu.offered.map menu.choice)) none := by
  obtain rfl := Option.some.inj isMenu
  rw [checkboxes, Query.answer_bind, labelledChoices_eq]
  refine ⟨rfl, ?_, rfl, rfl⟩
  rw [ChoiceMenu.selection, ChoiceMenu.picked_eq]
  rfl

theorem isOfferedBy_radioButtons
    (isMenu : element.choiceMenu? engine .radioButtonGroup = some menu) :
    menu.IsOfferedBy element (element.radioButtons.answer engine)
      (.flat (menu.offered.map menu.choice)) none := by
  obtain rfl := Option.some.inj isMenu
  rw [radioButtons, Query.answer_bind, labelledChoices_eq]
  refine ⟨rfl, ?_, rfl, rfl⟩
  rw [ChoiceMenu.selection, ChoiceMenu.picked_eq, ← List.head?_map]
  rfl

/-- The control of an element with choices offers these. -/
theorem exists_isOfferedBy (isMenu : element.choiceMenu? engine tag = some menu) :
    ∃ control choices limit, element.control? tag = some control ∧
      menu.IsOfferedBy element (control.answer engine) choices limit := by
  cases tag
  case select => exact ⟨_, _, _, rfl, isOfferedBy_staticSelect isMenu⟩
  case checkboxGroup => exact ⟨_, _, _, rfl, isOfferedBy_checkboxes isMenu⟩
  case radioButtonGroup => exact ⟨_, _, _, rfl, isOfferedBy_radioButtons isMenu⟩
  all_goals cases isMenu

theorem choiceMenu?_isMultiple_iff (isMenu : element.choiceMenu? engine tag = some menu) :
    menu.isMultiple = true ↔ menu.typeName ∈ ["multi_static_select", "checkboxes"] := by
  cases tag
  case select =>
    obtain rfl := Option.some.inj isMenu
    cases element.isMultiple <;> simp
  case checkboxGroup =>
    obtain rfl := Option.some.inj isMenu
    simp
  case radioButtonGroup =>
    obtain rfl := Option.some.inj isMenu
    simp
  all_goals cases isMenu

end Element

/-- Each element that offers choices is compiled to a component that lists all of them, and what is
selected in it at first are objects that it lists: those of the choices that say so or whose values
are named, in their order. A list is written for components in which several choices may be made,
and only the first object for the others. -/
theorem initial_choices_are_listed (engine : Engine W) {element : Element} {tag : Tag}
    (tagged : element.tag? = some tag)
    (hasChoices : tag ∈ [Tag.select, .checkboxGroup, .radioButtonGroup]) :
    ∃ menu component, element.choiceMenu? engine tag = some menu ∧
      element.component?.answer engine = some component ∧
      menu.IsShownBy element component.toJson ∧
      component.toJson.initialChoices ⊆ component.toJson.listedChoices ∧
      (component.toJson.member? "initial_option" = none ∨
        component.toJson.member? "initial_options" = none) ∧
      (menu.isMultiple = true ↔ menu.typeName ∈ ["multi_static_select", "checkboxes"]) := by
  obtain ⟨menu, isMenu⟩ : ∃ menu, element.choiceMenu? engine tag = some menu := by
    simp only [List.mem_cons, List.not_mem_nil, or_false] at hasChoices
    rcases hasChoices with rfl | rfl | rfl <;> exact ⟨_, rfl⟩
  obtain ⟨control, choices, limit, controls, offered⟩ := Element.exists_isOfferedBy isMenu
  obtain ⟨component, compiled, holds⟩ : ∃ component : Component,
      element.component?.answer engine = some component ∧
        component.control = control.answer engine :=
    ⟨_, Element.component?_of_control tagged controls, rfl⟩
  rw [← holds] at offered
  have shown := offered.isShownBy
  refine ⟨menu, component, isMenu, compiled, shown, shown.initialChoices_subset, ?_,
    Element.choiceMenu?_isMultiple_iff isMenu⟩
  rw [shown.one, shown.several]
  cases menu.isMultiple <;> simp

/-- A menu with groups for several colours, of which two are named and one says that it is selected.
An option outside the groups is not offered, though its value is named. -/
def colourMenu : Element :=
  ⟨"Select", .ofList [("multiple", .bool true), ("value", .string "green, grey")],
    [.element ⟨"Option", ∅, [.text "grey"]⟩,
      .element ⟨"Optgroup", ∅,
        [.element ⟨"Option", .ofList [("selected", .bool true)], [.text "red"]⟩,
          .element ⟨"Option", ∅, [.text "blue"]⟩]⟩,
      .element ⟨"Optgroup", ∅, [.element ⟨"Option", ∅, [.text " green "]⟩]⟩]⟩

/-- The options of both groups are listed, and two of the three are selected. -/
theorem colourMenu_initialChoices :
    colourMenu.tag? = some .select ∧ ∃ component,
      colourMenu.component?.answer Engine.reference = some component ∧
        component.toJson.initialChoices ⊆ component.toJson.listedChoices ∧
        component.toJson.member? "initial_options" = some (.array
          [(Choice.mk (.plain "red") "red" none none).toJson,
            (Choice.mk (.plain "green") "green" none none).toJson]) := by
  have tagged : colourMenu.tag? = some .select := by decide
  obtain ⟨menu, component, isMenu, compiled, shown, among, -⟩ :=
    initial_choices_are_listed Engine.reference tagged (by decide)
  obtain rfl := Option.some.inj isMenu
  refine ⟨tagged, component, compiled, among, shown.several.trans ?_⟩
  rfl

end MessageBlocks
