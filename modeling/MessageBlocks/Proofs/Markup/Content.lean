import MessageBlocks.Markup.OfTree
import MessageBlocks.Proofs.Grammar.Tags

/-!
# The content model of markup

In the markup of a grammatical tree no block stands below formatting, a link or a
paragraph, the format of a time is text, and preformatted text has no formatting
but links. The tables of the grammar say so about tags; here it is carried over to
markup.
-/

namespace MessageBlocks

mutual

/-- Markup that can stand within a line, at all depths. -/
def Markup.IsInline : Markup → Prop
  | .text _ | .lineBreak => True
  | .bold children | .italic children | .strike children | .code children
  | .link _ children => Markup.AreInline children
  | .time _ _ format => ∀ node ∈ format, ∃ content, node = .text content
  | .paragraph _ | .blockquote _ | .preformatted _ | .list _ _ => False

def Markup.AreInline : List Markup → Prop
  | [] => True
  | node :: rest => Markup.IsInline node ∧ Markup.AreInline rest

end

/-- What may stand in preformatted text: text, line breaks and links. -/
def Markup.IsVerbatim : Markup → Prop
  | .text _ | .lineBreak => True
  | .link _ children => AreInline children
  | _ => False

mutual

/-- Markup that obeys the content model, at all depths. -/
def Markup.IsFormed : Markup → Prop
  | .paragraph children => Markup.AreInline children
  | .blockquote children => Markup.AreFormed children
  | .preformatted children => ∀ node ∈ children, node.IsVerbatim
  | .list _ items => ListItem.AreFormed items
  | node => node.IsInline

def Markup.AreFormed : List Markup → Prop
  | [] => True
  | node :: rest => Markup.IsFormed node ∧ Markup.AreFormed rest

def ListItem.AreFormed : List ListItem → Prop
  | [] => True
  | ⟨_, children⟩ :: rest => Markup.AreFormed children ∧ ListItem.AreFormed rest

end

namespace Markup

theorem areInline_iff {nodes : List Markup} :
    AreInline nodes ↔ ∀ node ∈ nodes, node.IsInline := by
  induction nodes with
  | nil => simp [AreInline]
  | cons node rest ih => simp [AreInline, ih]

theorem areFormed_iff {nodes : List Markup} :
    AreFormed nodes ↔ ∀ node ∈ nodes, node.IsFormed := by
  induction nodes with
  | nil => simp [AreFormed]
  | cons node rest ih => simp [AreFormed, ih]

theorem IsInline.isFormed {node : Markup} (isInline : node.IsInline) : node.IsFormed := by
  cases node with
  | paragraph | blockquote | preformatted | list => cases isInline
  | _ => exact isInline

end Markup

theorem ListItem.areFormed_iff {items : List ListItem} :
    AreFormed items ↔ ∀ item ∈ items, Markup.AreFormed item.children := by
  induction items with
  | nil => simp [AreFormed]
  | cons item rest ih =>
      obtain ⟨number, children⟩ := item
      simp [AreFormed, ih]

namespace Node

theorem markup_eq_filterMap (nodes : List Node) : markup nodes = nodes.filterMap markup? := by
  induction nodes with
  | nil => rfl
  | cons node rest ih =>
      rw [markup, ih]
      cases found : markup? node <;> simp [found]

theorem listItems_eq_filterMap (nodes : List Node) :
    listItems nodes = nodes.filterMap listItem? := by
  induction nodes with
  | nil => rfl
  | cons node rest ih =>
      rw [listItems, ih]
      cases found : listItem? node <;> simp [found]

/-- The markup of a child is the text of a text or the markup of an element. -/
theorem mem_markup {nodes : List Node} {node : Markup} (member : node ∈ markup nodes) :
    (∃ content, .text content ∈ nodes ∧ node = .text content) ∨
      ∃ element, .element element ∈ nodes ∧ markup? (.element element) = some node := by
  rw [markup_eq_filterMap, List.mem_filterMap] at member
  obtain ⟨child, childMember, found⟩ := member
  cases child with
  | text content => exact .inl ⟨content, childMember, (Option.some.inj found).symm⟩
  | element element => exact .inr ⟨element, childMember, found⟩

/-- The items of a list come from the child elements that are items. -/
theorem mem_listItems {nodes : List Node} {item : ListItem}
    (member : item ∈ listItems nodes) :
    ∃ child, .element child ∈ nodes ∧ item.children = markup child.children := by
  rw [listItems_eq_filterMap] at member
  obtain ⟨node, nodeMember, found⟩ := List.mem_filterMap.1 member
  cases node with
  | text content => cases found
  | element child =>
      obtain ⟨kind, attributes, children⟩ := child
      rw [listItem?] at found
      split at found
      · exact ⟨_, nodeMember, by rw [← Option.some.inj found]⟩
      · cases found

end Node

theorem Node.markup?_of_tag {element : Element} {tag : Tag} (tagged : element.tag? = some tag) :
    Node.markup? (.element element) =
      match tag with
      | .unorderedList => some (.list .unordered (Node.listItems element.children))
      | .orderedList =>
          some (.list (Markup.orderedKind element.attributes) (Node.listItems element.children))
      | tag => Markup.ofElement? tag element.attributes (Node.markup element.children) := by
  obtain ⟨kind, attributes, children⟩ := element
  rw [Element.tag?] at tagged
  rw [Node.markup?, tagged]
  cases tag <;> rfl

namespace Element

variable {root element : Element}

/-- What the content model asks of the markup of an element: it obeys the model, and it can
stand within a line if the grammar lists the tag of the element as markup within a line. -/
def HasContent (element : Element) : Prop :=
  ∀ node, Node.markup? (.element element) = some node →
    node.IsFormed ∧ (∀ tag ∈ Grammar.inlineMarkup, element.tag? = some tag → node.IsInline)

theorem areFormed_markup
    (children : ∀ child, .element child ∈ element.children → child.HasContent) :
    Markup.AreFormed (Node.markup element.children) := by
  rw [Markup.areFormed_iff]
  intro node member
  rcases Node.mem_markup member with ⟨content, -, rfl⟩ | ⟨child, childMember, found⟩
  · trivial
  · exact (children child childMember node found).1

/-- If a rule allows only markup within a line, the markup of the children can stand there. -/
theorem areInline_markup {rule : Rule} (obeys : element.Obeys rule)
    (within : ∀ tag ∈ rule.children, tag ∈ Grammar.inlineMarkup)
    (children : ∀ child, .element child ∈ element.children → child.HasContent) :
    Markup.AreInline (Node.markup element.children) := by
  rw [Markup.areInline_iff]
  intro node member
  rcases Node.mem_markup member with ⟨content, -, rfl⟩ | ⟨child, childMember, found⟩
  · trivial
  · obtain ⟨tag, allowed, tagged⟩ := obeys.childTag (mem_elements.2 childMember)
    exact (children child childMember node found).2 tag (within tag allowed) tagged

/-- The children of an element that allows only text are text. -/
theorem allText_markup {rule : Rule} (obeys : element.Obeys rule)
    (onlyText : rule.children = [.text]) :
    ∀ node ∈ Node.markup element.children, ∃ content, node = .text content := by
  intro node member
  rcases Node.mem_markup member with ⟨content, -, rfl⟩ | ⟨child, childMember, found⟩
  · exact ⟨content, rfl⟩
  · obtain ⟨tag, allowed, tagged⟩ := obeys.childTag (mem_elements.2 childMember)
    rw [onlyText, List.mem_singleton] at allowed
    subst allowed
    rw [Node.markup?_of_tag tagged] at found
    cases found

theorem areVerbatim_markup (obeys : element.Obeys Tag.preformatted.rule)
    (children : ∀ child, .element child ∈ element.children → child.HasContent) :
    ∀ node ∈ Node.markup element.children, node.IsVerbatim := by
  intro node member
  rcases Node.mem_markup member with ⟨content, -, rfl⟩ | ⟨child, childMember, found⟩
  · trivial
  · have content := children child childMember node found
    obtain ⟨tag, allowed, tagged⟩ := obeys.childTag (mem_elements.2 childMember)
    rw [Node.markup?_of_tag tagged] at found
    simp only [Tag.rule, List.mem_cons, List.not_mem_nil, or_false] at allowed
    rcases allowed with rfl | rfl | rfl
    · cases found
    · obtain rfl := Option.some.inj found
      exact content.2 .link (by decide) tagged
    · obtain rfl := Option.some.inj found
      trivial

theorem areFormed_listItems
    (items : ∀ child, .element child ∈ element.children →
      Markup.AreFormed (Node.markup child.children)) :
    ListItem.AreFormed (Node.listItems element.children) := by
  rw [ListItem.areFormed_iff]
  intro item member
  obtain ⟨child, childMember, same⟩ := Node.mem_listItems member
  rw [same]
  exact items child childMember

end Element

/-- Every element of a grammatical tree has the content that the model asks for. The
induction carries the content of an item along with that of an element, since a list
takes the markup below its items. -/
theorem Grammatical.hasContent {root element : Element} (grammatical : Grammatical root)
    (inside : root.Within element) :
    element.HasContent ∧ Markup.AreFormed (Node.markup element.children) := by
  induction element using Element.induction with
  | step element ih =>
      have below (child : Element) (member : .element child ∈ element.children) :=
        ih child member (inside.child member)
      have contents : ∀ child, .element child ∈ element.children → child.HasContent :=
        fun child member => (below child member).1
      have formed := Element.areFormed_markup contents
      refine ⟨?_, formed⟩
      intro node found
      obtain ⟨tag, tagged, obeys⟩ := grammatical.obeys inside
      have areInline := fun within => Element.areInline_markup obeys within contents
      have items := Element.areFormed_listItems fun child member => (below child member).2
      rw [Node.markup?_of_tag tagged] at found
      have inlineTag (isInline : node.IsInline) : node.IsFormed ∧
          (∀ tag ∈ Grammar.inlineMarkup, element.tag? = some tag → node.IsInline) :=
        ⟨isInline.isFormed, fun _ _ _ => isInline⟩
      have blockTag (isFormed : node.IsFormed) (outside : tag ∉ Grammar.inlineMarkup) :
          node.IsFormed ∧
            (∀ tag ∈ Grammar.inlineMarkup, element.tag? = some tag → node.IsInline) := by
        refine ⟨isFormed, fun other among otherTagged => ?_⟩
        rw [tagged, Option.some.injEq] at otherTagged
        exact absurd among (otherTagged ▸ outside)
      cases tag
      case bold | italic | strike | code | link =>
          obtain rfl := Option.some.inj found
          exact inlineTag (areInline (by decide))
      case time =>
          obtain rfl := Option.some.inj found
          exact inlineTag (Element.allText_markup obeys rfl)
      case lineBreak =>
          obtain rfl := Option.some.inj found
          exact inlineTag trivial
      case paragraph =>
          obtain rfl := Option.some.inj found
          exact blockTag (areInline (by decide)) (by decide)
      case blockquote =>
          obtain rfl := Option.some.inj found
          exact blockTag formed (by decide)
      case preformatted =>
          obtain rfl := Option.some.inj found
          exact blockTag (Element.areVerbatim_markup obeys contents) (by decide)
      case unorderedList | orderedList =>
          obtain rfl := Option.some.inj found
          exact blockTag items (by decide)
      all_goals cases found

/-- A run of children in a grammatical tree has markup that obeys the content model. -/
theorem Grammatical.areFormed_run {root element : Element} {nodes : List Node}
    (grammatical : Grammatical root) (inside : root.Within element)
    (run : nodes <:+: element.children) : Markup.AreFormed (Node.markup nodes) := by
  have formed := Markup.areFormed_iff.1 (grammatical.hasContent inside).2
  rw [Markup.areFormed_iff]
  intro node member
  rw [Node.markup_eq_filterMap, List.mem_filterMap] at member
  obtain ⟨child, childMember, found⟩ := member
  apply formed
  rw [Node.markup_eq_filterMap, List.mem_filterMap]
  exact ⟨child, run.subset childMember, found⟩

end MessageBlocks
