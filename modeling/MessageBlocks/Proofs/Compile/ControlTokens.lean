import MessageBlocks.Proofs.Compile.Provenance
import MessageBlocks.Proofs.Grammar.Acceptance
import MessageBlocks.Proofs.Layout.Indents
import MessageBlocks.Proofs.Markup.Content
import MessageBlocks.Proofs.Markup.Tokens

/-!
# Control tokens of payloads

Where no markup is raw, every text in the markup of the client that a payload holds
has been rendered from a run of children in the tree. So the tokens of the payload are
flat exactly as far as the markup of the tree keeps them so.
-/

namespace MessageBlocks

/-- Every text in the markup of the client that an accepted tree without raw markup emits
has been rendered from neighbouring children of one element, and it is flat exactly if
the control tokens of these children are. -/
theorem payload_isFlat_iff (root : Element) (engine : Engine Float)
    (bundled : engine.metrics = .reference) (accepted : root.validate = .ok ())
    (noRaw : ∀ element, root.Within element → element.tag? = some .mrkdwn →
      element.isSet "raw" = false) :
    (root.surface.answer engine).toJson.Everywhere fun part =>
      part.HasType ["mrkdwn"] →
        ∃ text element nodes, part.member? "text" = some (.string text) ∧
          root.Within element ∧ nodes <:+: element.children ∧
          text.toList = (Markup.render (Node.markup nodes)).answer engine ∧
          (Text.IsFlat text.toList ↔ Markup.KeepTokens .line (Node.markup nodes)) := by
  have grammatical := Grammatical.of_validate accepted
  have sober := Engine.isSober_indent bundled
  intro part inside marked
  obtain ⟨text, member, writes⟩ := root.everywhere_writes engine part inside marked
  cases writes with
  | @rendered element nodes within run =>
      have formed := grammatical.areFormed_run within run
      refine ⟨_, element, nodes, member, within, run, String.toList_ofList, ?_⟩
      rw [String.toList_ofList]
      exact Markup.isFlat_render sober formed
  | raw within tag isRaw =>
      rw [noRaw _ within tag] at isRaw
      cases isRaw

/-- A message with a link whose target reads as a mention but holds a bracket. -/
def bracketMessage : Element :=
  (Element.ofKind "Blocks").append [.element ((Element.ofKind "Section").append
    [.element ((Element.ofKind "a").withAttribute "href" (.string "@U<"))])]

/-- The text part of the payload of the message. -/
def bracketText : Json :=
  .ofFields [("type", some (.string "mrkdwn")), ("text", some (.string "<@U<>"))]

theorem part_bracketText :
    (bracketMessage.surface.answer Engine.reference).toJson.Part bracketText := by
  have payload : (bracketMessage.surface.answer Engine.reference).toJson =
      .array [.object [("text", bracketText), ("type", .string "section")]] := by rfl
  rw [payload]
  exact (Json.Part.self.item List.mem_cons_self).member List.mem_cons_self

/-- The checker accepts the message and it has no raw markup, and yet its text is not flat,
because the markup does not keep its tokens. -/
theorem bracketMessage_isFlat_iff :
    Engine.reference.metrics = .reference ∧ bracketMessage.validate = .ok () ∧
      (∀ element, bracketMessage.Within element → element.tag? = some .mrkdwn →
        element.isSet "raw" = false) ∧
      ∃ element nodes, bracketMessage.Within element ∧ nodes <:+: element.children ∧
        "<@U<>".toList = (Markup.render (Node.markup nodes)).answer Engine.reference ∧
        ¬ Text.IsFlat "<@U<>".toList ∧ ¬ Markup.KeepTokens .line (Node.markup nodes) := by
  have accepted : bracketMessage.validate = .ok () := by rfl
  have noRaw : ∀ element, bracketMessage.Within element → element.tag? = some .mrkdwn →
      element.isSet "raw" = false := by
    intro element inside tag
    rcases Element.within_iff.1 inside with rfl | ⟨block, member, inBlock⟩
    · exact absurd tag (by decide)
    · obtain rfl := Node.element.inj (List.mem_singleton.1 member)
      rcases Element.within_iff.1 inBlock with rfl | ⟨link, member, inLink⟩
      · exact absurd tag (by decide)
      · obtain rfl := Node.element.inj (List.mem_singleton.1 member)
        rcases Element.within_iff.1 inLink with rfl | ⟨_, member, _⟩
        · exact absurd tag (by decide)
        · cases member
  refine ⟨rfl, accepted, noRaw, ?_⟩
  have marked : bracketText.HasType ["mrkdwn"] := ⟨_, List.mem_cons_self, by rfl⟩
  obtain ⟨text, element, nodes, found, within, run, rendered, flat⟩ :=
    payload_isFlat_iff bracketMessage Engine.reference rfl accepted noRaw bracketText
      part_bracketText marked
  obtain rfl : "<@U<>" = text := by
    have listed : bracketText.member? "text" = some (.string "<@U<>") := by rfl
    rw [listed] at found
    exact Json.string.inj (Option.some.inj found)
  have broken : ¬ Text.IsFlat "<@U<>".toList := by decide
  exact ⟨element, nodes, within, run, rendered, broken, fun keeps => broken (flat.2 keeps)⟩

end MessageBlocks
