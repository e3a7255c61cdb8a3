import MessageBlocks.Proofs.Markup.RenderLaw
import MessageBlocks.Proofs.Markup.Tokenless
import MessageBlocks.Proofs.Text.EscapeLayout
import MessageBlocks.Proofs.Text.Visible

/-!
# Visible characters of markup

Rendering adds marks, markers, indents and prefixes to the text of a tree and removes
spacing. Where there are no links and no times, whose targets and formats take the place
of text, it loses no visible character: those of the tree are found in the rendered
text, once this is read, and in the plain text, in the same order.
-/

namespace MessageBlocks

open Text

mutual

/-- The text of a node of markup and everything below it, verbatim. -/
def Markup.rawText : Markup → List Char
  | .text content => content.toList
  | .bold children | .italic children | .strike children | .code children
  | .link _ children | .time _ _ children | .paragraph children | .blockquote children
  | .preformatted children => Markup.rawTexts children
  | .lineBreak => []
  | .list _ items => ListItem.rawTexts items

def Markup.rawTexts : List Markup → List Char
  | [] => []
  | node :: rest => Markup.rawText node ++ Markup.rawTexts rest

def ListItem.rawTexts : List ListItem → List Char
  | [] => []
  | ⟨_, children⟩ :: rest => Markup.rawTexts children ++ ListItem.rawTexts rest

end

namespace Markup

theorem rawTexts_append (first second : List Markup) :
    rawTexts (first ++ second) = rawTexts first ++ rawTexts second := by
  induction first with
  | nil => rfl
  | cons node rest ih => simp [rawTexts, ih]

theorem rawTexts_singleton (node : Markup) : rawTexts [node] = node.rawText :=
  List.append_nil _

mutual

/-- Plain text has the visible characters of the text. -/
theorem visible_plain : ∀ node : Markup, node.IsTokenless →
    visible node.plain = visible node.rawText
  | .text content, _ => visible_collapse content.toList
  | .bold children, tokenless | .italic children, tokenless | .strike children, tokenless
  | .code children, tokenless => visible_plainAll children tokenless
  | .lineBreak, _ => rfl
  | .paragraph children, tokenless | .blockquote children, tokenless
  | .preformatted children, tokenless => by
      rw [plain, rawText, visible_append, ← visible_plainAll children tokenless]
      exact List.append_nil _
  | .list kind items, tokenless => by
      rw [plain, rawText, visible_append, ← visible_items items tokenless]
      exact List.append_nil _

theorem visible_plainAll : ∀ nodes : List Markup, AreTokenless nodes →
    visible (plainAll nodes) = visible (rawTexts nodes)
  | [], _ => rfl
  | node :: rest, ⟨tokenless, restTokenless⟩ => by
      rw [plainAll, rawTexts, visible_append, visible_append, visible_plain node tokenless,
        visible_plainAll rest restTokenless]

theorem visible_items : ∀ items : List ListItem, ListItem.AreTokenless items →
    visible (ListItem.plainAll items) = visible (ListItem.rawTexts items)
  | [], _ => rfl
  | ⟨_, children⟩ :: rest, ⟨tokenless, restTokenless⟩ => by
      rw [ListItem.plainAll, ListItem.rawTexts, visible_append, visible_append,
        ← visible_plainAll children tokenless, ← visible_items rest restTokenless]
      rfl

end

end Markup

/-- Markup without tokens: formatting, blocks, lists and their items. -/
def Grammar.plainMarkup : List Tag :=
  [.bold, .italic, .strike, .code, .lineBreak, .paragraph, .blockquote, .preformatted,
    .unorderedList, .orderedList, .listItem]

section Trees

theorem Node.visible_rawTexts_eq_nil {nodes : List Node}
    (blank : ∀ node ∈ nodes, visible node.rawText = []) : visible (Node.rawTexts nodes) = [] := by
  induction nodes with
  | nil => rfl
  | cons node rest ih =>
      rw [rawTexts, visible_append, blank node List.mem_cons_self,
        ih fun other member => blank other (List.mem_cons_of_mem _ member)]
      rfl

/-- If all child elements are markup with the same visible characters, none is lost. -/
theorem Node.visible_rawTexts_markup {nodes : List Node}
    (same : ∀ child, .element child ∈ nodes → ∃ node, markup? (.element child) = some node ∧
      visible (rawTexts child.children) = visible node.rawText) :
    visible (rawTexts nodes) = visible (Markup.rawTexts (markup nodes)) := by
  induction nodes with
  | nil => rfl
  | cons node rest ih =>
      have following := ih fun child member => same child (List.mem_cons_of_mem _ member)
      rw [rawTexts, visible_append, following, markup, Markup.rawTexts_append, visible_append]
      congr 1
      cases node with
      | text content => simp [rawText, markup?, Markup.rawTexts, Markup.rawText]
      | element child =>
          obtain ⟨node, found, visibles⟩ := same child List.mem_cons_self
          rw [found, Option.toList_some, Markup.rawTexts_singleton, ← visibles, rawText_element]

/-- In a list all child elements are items, and text between them is blank. -/
theorem Node.visible_rawTexts_listItems {nodes : List Node}
    (blank : ∀ content, .text content ∈ nodes → visible content.toList = [])
    (same : ∀ child, .element child ∈ nodes → child.tag? = some .listItem ∧
      visible (rawTexts child.children) = visible (Markup.rawTexts (markup child.children))) :
    visible (rawTexts nodes) = visible (ListItem.rawTexts (listItems nodes)) := by
  induction nodes with
  | nil => rfl
  | cons node rest ih =>
      have following := ih (fun content member => blank content (List.mem_cons_of_mem _ member))
        fun child member => same child (List.mem_cons_of_mem _ member)
      rw [rawTexts, visible_append, following, listItems]
      cases node with
      | text content =>
          have noText : visible (rawText (.text content)) = [] := blank content List.mem_cons_self
          rw [noText]
          rfl
      | element child =>
          obtain ⟨tagged, visibles⟩ := same child List.mem_cons_self
          obtain ⟨kind, attributes, children⟩ := child
          rw [Element.tag?] at tagged
          rw [listItem?, if_pos tagged, Option.toList_some, List.singleton_append,
            ListItem.rawTexts, visible_append, ← visibles]
          rfl

theorem Grammar.mem_listItem_children {tag : Tag} (member : .listItem ∈ tag.rule.children) :
    tag = .unorderedList ∨ tag = .orderedList := by
  revert member
  cases tag <;> decide

/-- Where text is not allowed it has no visible characters. -/
theorem Element.Obeys.visible_text {element : Element} {rule : Rule} (obeys : element.Obeys rule)
    (noText : .text ∉ rule.children) {content : String}
    (member : .text content ∈ element.children) : visible content.toList = [] := by
  rw [visible_eq_nil_iff, ← trim_eq_nil_iff]
  by_contra shown
  obtain ⟨tag, allowed, named⟩ := Rule.mem_childNames.1 (obeys.textual content member shown)
  obtain rfl : tag = .text := Tag.eq_of_mem_names named (by decide)
  exact noText allowed

/-- An element of a grammatical tree below which all markup is plain loses no visible character
when its children become markup or, for a list, items. -/
theorem Grammatical.visible_rawTexts {root element : Element} (grammatical : Grammatical root)
    (inside : root.Within element)
    (plain : ∀ inner, Node.Below element.children inner →
      ∃ tag ∈ Grammar.plainMarkup, inner.tag? = some tag) :
    (element.tag? ≠ some .unorderedList ∧ element.tag? ≠ some .orderedList →
      visible (Node.rawTexts element.children) =
        visible (Markup.rawTexts (Node.markup element.children))) ∧
    (element.tag? = some .unorderedList ∨ element.tag? = some .orderedList →
      visible (Node.rawTexts element.children) =
        visible (ListItem.rawTexts (Node.listItems element.children))) := by
  induction element using Element.induction with
  | step element ih =>
      obtain ⟨parentTag, parentTagged, obeys⟩ := grammatical.obeys inside
      have below (child : Element) (member : .element child ∈ element.children) :=
        ih child member (inside.child member) fun inner ⟨top, topMember, topInside⟩ =>
          plain inner ⟨child, member, (Element.Within.root.child topMember).trans topInside⟩
      rw [parentTagged]
      constructor
      · rintro ⟨notUnordered, notOrdered⟩
        apply Node.visible_rawTexts_markup
        intro child member
        obtain ⟨tag, among, tagged⟩ := plain child ⟨child, member, .root⟩
        have found := Node.markup?_of_tag tagged
        obtain ⟨run, items⟩ := below child member
        rw [tagged] at run items
        cases tag
        case bold | italic | strike | code | paragraph | blockquote | preformatted =>
            exact ⟨_, found, run (by decide)⟩
        case unorderedList | orderedList => exact ⟨_, found, items (by decide)⟩
        case lineBreak =>
            have childObeys := grammatical.obeys_of_tag (inside.child member) tagged
            refine ⟨_, found, Node.visible_rawTexts_eq_nil fun node nodeMember => ?_⟩
            cases node with
            | text content => exact childObeys.visible_text (by decide) nodeMember
            | element inner =>
                obtain ⟨_, allowed, -⟩ := childObeys.childTag (Element.mem_elements.2 nodeMember)
                cases allowed
        case listItem =>
            obtain ⟨childTag, allowed, childTagged⟩ :=
              obeys.childTag (Element.mem_elements.2 member)
            obtain rfl : .listItem = childTag := Option.some.inj (tagged.symm.trans childTagged)
            rcases Grammar.mem_listItem_children allowed with rfl | rfl
            · exact absurd rfl notUnordered
            · exact absurd rfl notOrdered
        all_goals exact absurd among (by decide)
      · intro isList
        have onlyItems : parentTag.rule.children = [.listItem] := by
          rcases isList with same | same <;> obtain rfl := Option.some.inj same <;> rfl
        apply Node.visible_rawTexts_listItems
        · intro content member
          exact obeys.visible_text (by rw [onlyItems]; decide) member
        · intro child member
          obtain ⟨tag, allowed, tagged⟩ := obeys.childTag (Element.mem_elements.2 member)
          rw [onlyItems] at allowed
          obtain rfl := List.mem_singleton.1 allowed
          refine ⟨tagged, (below child member).1 ?_⟩
          rw [tagged]
          decide

end Trees
end MessageBlocks
