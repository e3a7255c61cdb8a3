import MessageBlocks.Proofs.Markup.Marks

/-!
# Marks in the texts of accepted trees

The grammar allows no formatting directly in the same formatting, under whatever name, and
markup has no text but that of the tree. So where the text of an accepted tree has no marks, all
marks on a line of its rendered text have been put there by the renderer, and they nest.
-/

namespace MessageBlocks

open Text

mutual

theorem Node.rawText_markup? : ∀ (node : Node) (parsed : Markup), markup? node = some parsed →
    parsed.rawText.Sublist node.rawText
  | .text _, parsed, found => by
      obtain rfl := Option.some.inj found
      exact List.Sublist.refl _
  | .element ⟨kind, attributes, children⟩, parsed, found => by
      rw [markup?] at found
      rw [rawText, Element.rawText]
      split at found
      · obtain rfl := Option.some.inj found
        exact rawTexts_listItems children
      · obtain rfl := Option.some.inj found
        exact rawTexts_listItems children
      · next tag _ _ _ =>
          cases tag
          case bold | italic | strike | code | link | time | paragraph | blockquote
            | preformatted =>
              obtain rfl := Option.some.inj found
              exact rawTexts_markup children
          case lineBreak =>
              obtain rfl := Option.some.inj found
              exact List.nil_sublist _
          all_goals cases found
      · cases found

/-- Markup has no text but that of the tree. -/
theorem Node.rawTexts_markup : ∀ nodes : List Node,
    (Markup.rawTexts (markup nodes)).Sublist (rawTexts nodes)
  | [] => List.Sublist.refl _
  | node :: rest => by
      rw [markup, Markup.rawTexts_append, rawTexts]
      refine List.Sublist.append ?_ (rawTexts_markup rest)
      cases found : markup? node with
      | none => exact List.nil_sublist _
      | some parsed =>
          rw [Option.toList_some, Markup.rawTexts_singleton]
          exact rawText_markup? node parsed found

theorem Node.rawTexts_listItem? : ∀ (node : Node) (item : ListItem), listItem? node = some item →
    (Markup.rawTexts item.children).Sublist node.rawText
  | .text _, item, found => nomatch found
  | .element ⟨kind, attributes, children⟩, item, found => by
      rw [listItem?] at found
      split at found
      · obtain rfl := Option.some.inj found
        exact rawTexts_markup children
      · cases found

theorem Node.rawTexts_listItems : ∀ nodes : List Node,
    (ListItem.rawTexts (listItems nodes)).Sublist (rawTexts nodes)
  | [] => List.Sublist.refl _
  | node :: rest => by
      rw [listItems, rawTexts]
      cases found : listItem? node with
      | none => exact (rawTexts_listItems rest).trans (List.sublist_append_right _ _)
      | some item =>
          obtain ⟨number, children⟩ := item
          exact (rawTexts_listItem? node _ found).append (rawTexts_listItems rest)

end

/-- The mark of the markup that a tag stands for. -/
def Tag.mark? : Tag → Option Char
  | .bold => some '*'
  | .italic => some '_'
  | .strike => some '~'
  | .code => some '\x60'
  | _ => none

theorem Markup.mark?_of_tag {element : Element} {tag : Tag} {node : Markup}
    (tagged : element.tag? = some tag) (found : Node.markup? (.element element) = some node) :
    node.mark? = tag.mark? := by
  rw [Node.markup?_of_tag tagged] at found
  cases tag
  case bold | italic | strike | code | link | time | lineBreak | paragraph | blockquote
    | preformatted | unorderedList | orderedList =>
      obtain rfl := Option.some.inj found
      rfl
  all_goals cases found

/-- The type names of text with formatting, quotes and lists, without tokens and fences. -/
def Grammar.markedNames : List String :=
  ["b", "strong", "i", "em", "s", "strike", "del", "code", "br", "p", "blockquote", "ul", "ol",
    "li"]

def Grammar.markedTags : List Tag :=
  [.bold, .italic, .strike, .code, .lineBreak, .paragraph, .blockquote, .unorderedList,
    .orderedList, .listItem]

namespace Element

variable {root element : Element}

theorem markedTag (named : element.kind ∈ Grammar.markedNames) :
    ∃ tag ∈ Grammar.markedTags, element.tag? = some tag := by
  have tags : ∀ name ∈ Grammar.markedNames, ∃ tag ∈ Grammar.markedTags,
      Tag.ofName? name = some tag := by decide
  exact tags element.kind named

/-- Where a rule does not allow the tag of a mark, the children do not put that mark. -/
theorem Obeys.avoids {rule : Rule} {mark : Char} (obeys : element.Obeys rule)
    (others : ∀ tag ∈ rule.children, tag.mark? ≠ some mark) :
    Markup.Avoids (some mark) (Node.markup element.children) := by
  intro node member own found
  rcases Node.mem_markup member with ⟨content, -, rfl⟩ | ⟨child, childMember, same⟩
  · cases found
  · obtain ⟨tag, allowed, tagged⟩ := obeys.childTag (mem_elements.2 childMember)
    rw [Markup.mark?_of_tag tagged same] at found
    rintro equal
    exact others tag allowed (found.trans equal.symm)

/-- The markup of an element all of whose tree has marked names. The induction carries the
markup of the children along, which is that of an item of a list. -/
theorem isApart_markup (grammatical : Grammatical root) (inside : root.Within element)
    (named : ∀ inner, element.Within inner → inner.kind ∈ Grammar.markedNames) :
    (∀ node, Node.markup? (.element element) = some node → node.IsApart) ∧
      Markup.AreApart (Node.markup element.children) := by
  induction element using Element.induction with
  | step element ih =>
      have below (child : Element) (member : .element child ∈ element.children) :=
        ih child member (inside.child member) fun inner innerInside =>
          named inner ((Within.root.child member).trans innerInside)
      have children : Markup.AreApart (Node.markup element.children) := by
        rw [Markup.areApart_iff]
        intro node member
        rcases Node.mem_markup member with ⟨content, -, rfl⟩ | ⟨child, childMember, found⟩
        · trivial
        · exact (below child childMember).1 node found
      have items : ListItem.AreApart (Node.listItems element.children) := by
        rw [ListItem.areApart_iff]
        intro item member
        obtain ⟨child, childMember, same⟩ := Node.mem_listItems member
        rw [same]
        exact (below child childMember).2
      refine ⟨fun node found => ?_, children⟩
      obtain ⟨tag, among, tagged⟩ := markedTag (named element .root)
      have obeys := grammatical.obeys_of_tag inside tagged
      rw [Node.markup?_of_tag tagged] at found
      cases tag
      case bold | italic | strike =>
          obtain rfl := Option.some.inj found
          exact ⟨obeys.avoids (by decide), children⟩
      case code =>
          obtain rfl := Option.some.inj found
          apply Node.areTokenless_markup
          rintro inner ⟨child, member, innerInside⟩
          obtain ⟨innerTag, innerAmong, innerTagged⟩ :=
            markedTag (named inner ((Within.root.child member).trans innerInside))
          rw [innerTagged]
          constructor <;> rintro same <;> obtain rfl := Option.some.inj same <;>
            exact absurd innerAmong (by decide)
      case lineBreak =>
          obtain rfl := Option.some.inj found
          trivial
      case paragraph | blockquote =>
          obtain rfl := Option.some.inj found
          exact children
      case unorderedList | orderedList =>
          obtain rfl := Option.some.inj found
          exact items
      case listItem => cases found
      all_goals exact absurd among (by decide)

end Element

/-- The markup of a run of children with nothing but marked names below it. -/
theorem Grammatical.areApart_run {root element : Element} {nodes : List Node}
    (grammatical : Grammatical root) (inside : root.Within element)
    (run : nodes <:+: element.children)
    (named : ∀ inner, Node.Below nodes inner → inner.kind ∈ Grammar.markedNames) :
    Markup.AreApart (Node.markup nodes) := by
  rw [Markup.areApart_iff]
  intro node member
  rcases Node.mem_markup member with ⟨content, -, rfl⟩ | ⟨child, childMember, found⟩
  · trivial
  · have childInside := inside.child (run.subset childMember)
    exact (Element.isApart_markup grammatical childInside fun inner innerInside =>
      named inner ⟨child, childMember, innerInside⟩).1 node found

/-- In an accepted tree, where the elements below a run of children have marked names and their
text has no marks, all marks of the rendered text nest on each line and touch what they mark. -/
theorem marks_nest_on_lines {W : Type} [Width W] {root element : Element} {nodes : List Node}
    (engine : Engine W)
    (glyphs : ∀ mark ∈ marks, ∀ entry ∈ engine.metrics.spaces, mark ∉ entry.1.toList)
    (accepted : root.validate = .ok ()) (inside : root.Within element)
    (run : nodes <:+: element.children)
    (named : ∀ inner, Node.Below nodes inner → inner.kind ∈ Grammar.markedNames)
    (unmarked : ∀ mark ∈ marks, mark ∉ Node.rawTexts nodes) :
    ∀ line ∈ lines ((Markup.render (Node.markup nodes)).answer engine),
      NestsMarks line ∧ IsMarked none line := by
  have grammatical := Grammatical.of_validate accepted
  have formed := grammatical.areFormed_run inside run
  have apart := grammatical.areApart_run inside run named
  have plain : IsUnmarked (Markup.rawTexts (Node.markup nodes)) := fun mark isMark member =>
    unmarked mark isMark ((Node.rawTexts_markup nodes).subset member)
  have indents (width : W) : IsUnmarked (engine.indent width) := fun mark isMark =>
    Engine.notMem_indent (glyphs mark isMark) width
  have rendered := Markup.isMarked_render indents formed apart plain
  intro line member
  exact ⟨(rendered.lines line member).nestsMarks, rendered.lines line member⟩

def italicPart : Element :=
  (Element.ofKind "em").append [.text "b", .element (.ofKind "br"), .text " c"]

def boldPart : Element :=
  (Element.ofKind "b").append [.text "a ", .element italicPart]

def codePart : Element :=
  (Element.ofKind "code").append [.text "d"]

/-- A section with formatting in formatting, a line break in both, and code. -/
def markedSection : Element :=
  (Element.ofKind "Section").append [.element boldPart, .text " & ", .element codePart]

def markedMessage : Element :=
  (Element.ofKind "Blocks").append [.element markedSection]

theorem markedSection_named :
    ∀ inner, Node.Below markedSection.children inner → inner.kind ∈ Grammar.markedNames := by
  rintro inner ⟨child, member, inChild⟩
  simp only [markedSection, Element.append, Element.ofKind, List.nil_append, List.mem_cons,
    Node.element.injEq, reduceCtorEq, List.not_mem_nil, or_false, false_or] at member
  rcases member with rfl | rfl
  · rcases Element.within_iff.1 inChild with rfl | ⟨_, member, inItalic⟩
    · decide
    · obtain rfl := Node.element.inj
        (List.mem_singleton.1 ((List.mem_cons.1 member).resolve_left nofun))
      rcases Element.within_iff.1 inItalic with rfl | ⟨_, member, inBreak⟩
      · decide
      · simp only [italicPart, Element.append, Element.ofKind, List.nil_append, List.mem_cons,
          Node.element.injEq, reduceCtorEq, List.not_mem_nil, or_false, false_or] at member
        obtain rfl := member
        rcases Element.within_iff.1 inBreak with rfl | ⟨_, member, _⟩
        · decide
        · cases member
  · rcases Element.within_iff.1 inChild with rfl | ⟨_, member, _⟩
    · decide
    · cases List.mem_singleton.1 member

/-- The marks of the message nest on both of its lines. -/
theorem markedMessage_marks_nest :
    (∀ mark ∈ marks, ∀ entry ∈ Engine.reference.metrics.spaces, mark ∉ entry.1.toList) ∧
      markedMessage.validate = .ok () ∧
      (Markup.render (Node.markup markedSection.children)).answer Engine.reference =
        "*a _b_*\n*_c_* &amp; \x60d\x60".toList ∧
      ∀ line ∈ lines "*a _b_*\n*_c_* &amp; \x60d\x60".toList,
        NestsMarks line ∧ IsMarked none line := by
  have glyphs : ∀ mark ∈ marks, ∀ entry ∈ Engine.reference.metrics.spaces,
      mark ∉ entry.1.toList := by
    intro mark isMark entry member inEntry
    have code := Metrics.code_of_mem_reference member inEntry
    have small : ∀ mark ∈ marks, mark.toNat < 0x2002 := forall_mem_marks.2 (by decide)
    exact absurd (small mark isMark) (Nat.not_lt.2 code.1)
  have accepted : markedMessage.validate = .ok () := by rfl
  have inside : markedMessage.Within markedSection :=
    Element.Within.root.child List.mem_cons_self
  have unmarked : ∀ mark ∈ marks, mark ∉ Node.rawTexts markedSection.children :=
    forall_mem_marks.2 (by decide)
  have rendered : (Markup.render (Node.markup markedSection.children)).answer Engine.reference =
      "*a _b_*\n*_c_* &amp; \x60d\x60".toList := by rfl
  have nest := marks_nest_on_lines Engine.reference glyphs accepted inside List.infix_rfl
    markedSection_named unmarked
  rw [rendered] at nest
  exact ⟨glyphs, accepted, rendered, nest⟩

end MessageBlocks
