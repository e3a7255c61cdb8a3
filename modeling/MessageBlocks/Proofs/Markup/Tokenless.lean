import MessageBlocks.Proofs.Markup.Content

/-!
# Markup without tokens

Only links and times can put control tokens into rendered text. Where no element below
some nodes is one of these, the markup of the nodes has none of them at any depth.
-/

namespace MessageBlocks

mutual

/-- Markup that holds neither a link nor a time, at all depths. -/
def Markup.IsTokenless : Markup → Prop
  | .text _ | .lineBreak => True
  | .bold children | .italic children | .strike children | .code children
  | .paragraph children | .blockquote children | .preformatted children =>
      Markup.AreTokenless children
  | .link _ _ | .time _ _ _ => False
  | .list _ items => ListItem.AreTokenless items

def Markup.AreTokenless : List Markup → Prop
  | [] => True
  | node :: rest => Markup.IsTokenless node ∧ Markup.AreTokenless rest

def ListItem.AreTokenless : List ListItem → Prop
  | [] => True
  | ⟨_, children⟩ :: rest => Markup.AreTokenless children ∧ ListItem.AreTokenless rest

end

theorem Markup.areTokenless_iff {nodes : List Markup} :
    AreTokenless nodes ↔ ∀ node ∈ nodes, node.IsTokenless := by
  induction nodes with
  | nil => simp [AreTokenless]
  | cons node rest ih => simp [AreTokenless, ih]

theorem Markup.areTokenless_append {first second : List Markup} :
    AreTokenless (first ++ second) ↔ AreTokenless first ∧ AreTokenless second := by
  simp only [areTokenless_iff, List.forall_mem_append]

theorem Markup.areTokenless_singleton {node : Markup} :
    AreTokenless [node] ↔ node.IsTokenless := by
  simp [areTokenless_iff]

theorem ListItem.areTokenless_iff {items : List ListItem} :
    AreTokenless items ↔ ∀ item ∈ items, Markup.AreTokenless item.children := by
  induction items with
  | nil => simp [AreTokenless]
  | cons item rest ih =>
      obtain ⟨number, children⟩ := item
      simp [AreTokenless, ih]

/-- `Node.Below nodes element`: the element is one of the nodes or stands in the tree of one. -/
def Node.Below (nodes : List Node) (element : Element) : Prop :=
  ∃ child, .element child ∈ nodes ∧ child.Within element

theorem Node.Below.of_children {nodes : List Node} {child inner : Element}
    (member : .element child ∈ nodes) (below : Node.Below child.children inner) :
    Node.Below nodes inner := by
  obtain ⟨top, topMember, inside⟩ := below
  exact ⟨child, member, (Element.Within.root.child topMember).trans inside⟩

theorem Node.markup?_of_untagged {element : Element} (untagged : element.tag? = none) :
    Node.markup? (.element element) = none := by
  obtain ⟨kind, attributes, children⟩ := element
  rw [Element.tag?] at untagged
  rw [Node.markup?, untagged]

namespace Element

/-- No link and no time stands in a tree whose elements are neither. -/
theorem isTokenless_markup {element : Element}
    (noToken : ∀ inner, element.Within inner →
      inner.tag? ≠ some .link ∧ inner.tag? ≠ some .time) :
    (∀ node, Node.markup? (.element element) = some node → node.IsTokenless) ∧
      Markup.AreTokenless (Node.markup element.children) := by
  induction element using Element.induction with
  | step element ih =>
      have below (child : Element) (member : .element child ∈ element.children) :=
        ih child member fun inner inside => noToken inner ((Within.root.child member).trans inside)
      have children : Markup.AreTokenless (Node.markup element.children) := by
        rw [Markup.areTokenless_iff]
        intro node member
        rcases Node.mem_markup member with ⟨content, -, rfl⟩ | ⟨child, childMember, found⟩
        · trivial
        · exact (below child childMember).1 node found
      have items : ListItem.AreTokenless (Node.listItems element.children) := by
        rw [ListItem.areTokenless_iff]
        intro item member
        obtain ⟨child, childMember, same⟩ := Node.mem_listItems member
        rw [same]
        exact (below child childMember).2
      refine ⟨fun node found => ?_, children⟩
      cases tagged : element.tag? with
      | none =>
          rw [Node.markup?_of_untagged tagged] at found
          cases found
      | some tag =>
          rw [Node.markup?_of_tag tagged] at found
          cases tag
          case link => exact absurd tagged (noToken element .root).1
          case time => exact absurd tagged (noToken element .root).2
          case bold | italic | strike | code | paragraph | blockquote | preformatted =>
              obtain rfl := Option.some.inj found
              exact children
          case lineBreak =>
              obtain rfl := Option.some.inj found
              trivial
          case unorderedList | orderedList =>
              obtain rfl := Option.some.inj found
              exact items
          all_goals cases found

end Element

/-- The markup of nodes below which there is no link and no time. -/
theorem Node.areTokenless_markup {nodes : List Node}
    (noToken : ∀ inner, Node.Below nodes inner →
      inner.tag? ≠ some .link ∧ inner.tag? ≠ some .time) :
    Markup.AreTokenless (Node.markup nodes) := by
  rw [Markup.areTokenless_iff]
  intro node member
  rcases Node.mem_markup member with ⟨content, -, rfl⟩ | ⟨child, childMember, found⟩
  · trivial
  · exact (Element.isTokenless_markup fun inner inside =>
      noToken inner ⟨child, childMember, inside⟩).1 node found

end MessageBlocks
