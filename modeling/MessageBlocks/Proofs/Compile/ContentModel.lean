import MessageBlocks.Grammar.Validation
import MessageBlocks.Proofs.Compile.Provenance
import MessageBlocks.Proofs.Markup.Arms

/-!
# The content model of accepted trees

All markup that is rendered for the payload of an accepted tree obeys the content model, so the
arms of the renderer for other markup are never taken.
-/

namespace MessageBlocks

/-- Markup below the elements of an accepted tree obeys the content model and is rendered alike
by any arms. So the texts of the payload, which are rendered from runs of children or are raw,
are the same for any arms. -/
theorem accepted_avoids_arms {W : Type} [Width W] (root : Element)
    (accepted : root.validate = .ok ()) :
    (∀ element, root.Within element → ∀ nodes, nodes <:+: element.children →
      Markup.ObeysContentModel (Node.markup nodes) ∧
        ∀ arms : Arms W, arms.render (Node.markup nodes) = Markup.render (Node.markup nodes)) ∧
    ∀ engine : Engine W, (root.surface.answer engine).toJson.Everywhere fun part =>
      part.HasType ["mrkdwn"] → ∃ text, part.member? "text" = some (.string text) ∧
        ((∃ element, root.Within element ∧ element.tag? = some .mrkdwn ∧
          element.isSet "raw" = true ∧ text.toList = Node.rawTexts element.children) ∨
        ∃ element nodes, root.Within element ∧ nodes <:+: element.children ∧
          ∀ arms : Arms W, text.toList = (arms.render (Node.markup nodes)).answer engine) := by
  have formed {element : Element} {nodes : List Node} (inside : root.Within element)
      (run : nodes <:+: element.children) : Markup.AreFormed (Node.markup nodes) :=
    (Grammatical.of_validate accepted).areFormed_run inside run
  constructor
  · intro element inside nodes run
    exact ⟨(formed inside run).obeysContentModel,
      fun arms => arms.render_of_areFormed (formed inside run)⟩
  · intro engine part inside marked
    obtain ⟨text, found, writes⟩ := root.everywhere_writes engine part inside marked
    refine ⟨text, found, ?_⟩
    cases writes with
    | @raw element below tag isRaw => exact .inl ⟨element, below, tag, isRaw, String.toList_ofList⟩
    | @rendered element nodes below run =>
        refine .inr ⟨element, nodes, below, run, fun arms => ?_⟩
        rw [arms.render_of_areFormed (formed below run), String.toList_ofList]

def fencedSection : Element :=
  (Element.ofKind "Section").append
    [.element ((Element.ofKind "pre").append
      [.text "if a < b", .element (Element.ofKind "br"),
        .element (((Element.ofKind "a").withAttribute "href" (.string "x.org")).append
          [.element ((Element.ofKind "b").append [.text "c"])])]),
     .element ((Element.ofKind "p").append [.text "d ", .element (Element.ofKind "br")])]

def fencedMessage : Element :=
  (Element.ofKind "Blocks").append [.element fencedSection]

/-- With any arms, the message has the text that it has with those of the renderer. -/
theorem fencedMessage_avoids_arms :
    fencedMessage.validate = .ok () ∧
      (loudArms.render (Node.markup fencedSection.children)).answer Engine.reference =
        "\x60\x60\x60\nif a &lt; b\n<x.org|*c*>\n\x60\x60\x60\n\nd".toList := by
  have accepted : fencedMessage.validate = .ok () := by rfl
  have inside : fencedMessage.Within fencedSection := Element.Within.root.child List.mem_cons_self
  obtain ⟨runs, -⟩ := accepted_avoids_arms (W := Float) fencedMessage accepted
  obtain ⟨-, alike⟩ := runs fencedSection inside fencedSection.children List.infix_rfl
  refine ⟨accepted, ?_⟩
  rw [alike loudArms]
  rfl

end MessageBlocks
