import MessageBlocks.Proofs.Compile.MarkedText
import MessageBlocks.Proofs.Markup.Gaps

/-!
# Spacing in the texts of accepted trees

Outside of preformatted text every leaf of a tree is collapsed by itself. So no other spacing than
spaces and line feeds is left in rendered and in plain text. But nothing collapses the spaces of
neighbouring leaves: where spacing goes on over several of them on a line, the texts have a space
for each.
-/

namespace MessageBlocks

/-- The space glyphs of the reference metrics are none of the spaces that collapse. -/
theorem Engine.spaceless_of_bundled {engine : Engine Float}
    (bundled : engine.metrics = .reference) : engine.Spaceless := by
  intro width glyph member
  obtain ⟨entry, entryMember, inEntry⟩ := mem_indent member
  rw [bundled] at entryMember
  have code := Metrics.code_of_mem_reference entryMember inEntry
  by_contra spacing
  rcases Text.eq_of_isSpacing (Bool.not_eq_false _ ▸ spacing) with rfl | rfl | rfl | rfl | rfl <;>
    exact absurd code (by decide)

/-- In an accepted tree, where the elements below a run of children have marked names, neither the
rendered text of the run nor its plain text has tabs, carriage returns or form feeds. Two spaces are
next to each other in its rendered text exactly if on some line there is spacing in two or more
leaves with only spacing in between. The same holds of its plain text, where there has to be
something visible before and after. -/
theorem spacing_collapses_by_leaf {root element : Element} {nodes : List Node}
    {engine : Engine Float} (bundled : engine.metrics = .reference)
    (accepted : root.validate = .ok ()) (inside : root.Within element)
    (run : nodes <:+: element.children)
    (named : ∀ inner, Node.Below nodes inner → inner.kind ∈ Grammar.markedNames) :
    (∀ sign ∈ ['\t', '\r', '\x0c'],
      sign ∉ (Markup.render (Node.markup nodes)).answer engine ∧
        sign ∉ Markup.plainText (Node.markup nodes)) ∧
    ([' ', ' '] <:+: (Markup.render (Node.markup nodes)).answer engine ↔
      ∃ before after, Leaf.GapBetween (Markup.allLeaves (Node.markup nodes)) before after) ∧
    ([' ', ' '] <:+: Markup.plainText (Node.markup nodes) ↔
      ∃ before after, Leaf.GapBetween (Markup.allLeaves (Node.markup nodes)) before after ∧
        (∃ leaf ∈ before, leaf.Shows) ∧ ∃ leaf ∈ after, leaf.Shows) := by
  have grammatical := Grammatical.of_validate accepted
  have spaceless := Engine.spaceless_of_bundled bundled
  have formed := grammatical.areFormed_run inside run
  have apart := grammatical.areApart_run inside run named
  refine ⟨fun sign isSign => ⟨?_, ?_⟩, Markup.adjacent_render spaceless formed apart,
    Markup.adjacent_plainText apart⟩
  · exact (Markup.isCollapsed_render spaceless formed apart).notMem sign isSign
  · exact (Markup.isCollapsed_plainText apart).notMem sign isSign

/-- A section with a space on both sides of the start of a bold part. -/
def spacedSection : Element :=
  (Element.ofKind "Section").append
    [.text "a ", .element ((Element.ofKind "b").append [.text "\tb"])]

def spacedMessage : Element :=
  (Element.ofKind "Blocks").append [.element spacedSection]

theorem spacedSection_named :
    ∀ inner, Node.Below spacedSection.children inner → inner.kind ∈ Grammar.markedNames := by
  rintro inner ⟨child, member, inChild⟩
  obtain rfl := Node.element.inj
    (List.mem_singleton.1 ((List.mem_cons.1 member).resolve_left nofun))
  rcases Element.within_iff.1 inChild with rfl | ⟨_, member, _⟩
  · decide
  · cases List.mem_singleton.1 member

/-- Both leaves of the message write a space. -/
theorem spacedMessage_gap :
    Engine.reference.metrics = .reference ∧ spacedMessage.validate = .ok () ∧
      (Markup.render (Node.markup spacedSection.children)).answer Engine.reference =
        "a  *b*".toList ∧
      Markup.plainText (Node.markup spacedSection.children) = "a  b".toList ∧
      '\t' ∉ "a  *b*".toList ∧ '\t' ∉ "a  b".toList ∧
      ∃ before after,
        Leaf.GapBetween [.text "a ".toList, .text "\tb".toList] before after ∧
          (∃ leaf ∈ before, leaf.Shows) ∧ ∃ leaf ∈ after, leaf.Shows := by
  have bundled : Engine.reference.metrics = .reference := rfl
  have accepted : spacedMessage.validate = .ok () := by rfl
  have inside : spacedMessage.Within spacedSection :=
    Element.Within.root.child List.mem_cons_self
  have rendered : (Markup.render (Node.markup spacedSection.children)).answer Engine.reference =
      "a  *b*".toList := by rfl
  have plain : Markup.plainText (Node.markup spacedSection.children) = "a  b".toList := by rfl
  obtain ⟨signs, -, gap⟩ :=
    spacing_collapses_by_leaf bundled accepted inside List.infix_rfl spacedSection_named
  rw [rendered, plain] at signs
  rw [plain] at gap
  obtain ⟨tabless, plainTabless⟩ := signs '\t' List.mem_cons_self
  exact ⟨bundled, accepted, rendered, plain, tabless, plainTabless, gap.1 (by decide)⟩

end MessageBlocks
