import MessageBlocks.Layout.Reference
import MessageBlocks.Proofs.Compile.Endings
import MessageBlocks.Proofs.Compile.Unseen
import MessageBlocks.Proofs.Grammar.Aliases

/-!
# Compilation and aliases

Compilation looks at the tags of elements and never at their names. So it makes the same of a
tree and of its canonical form, part by part, and trees that differ only in names for the same
tags are rendered alike.
-/

namespace MessageBlocks

open Grammar

namespace Element

/-- No reading shows which of its names a tag has. -/
theorem unseen_canonical : Unseen canonical where
  tag? element := by rw [tag?, kind_canonical, ofName?_canonicalName, tag?]
  literal? element := by
    funext name
    rw [literal?, get?, attributes_canonical, literal?, get?]
  bool? element := by
    funext name
    rw [bool?, get?, attributes_canonical, bool?, get?]
  int? element := by
    funext name
    rw [int?, float?, get?, attributes_canonical, int?, float?, get?]
  listNumber? element := by rw [attributes_canonical]
  children element := by
    have nodes : Node.canonical = Node.change canonical := by
      funext node
      cases node <;> rfl
    rw [children_canonical, nodes]

/-- A tree and its canonical form stand for the same surface. -/
theorem surface_canonical {W : Type} [Width W] (element : Element) :
    (element.canonical.surface : Query W Surface) = element.surface :=
  unseen_canonical.surface_eq element

end Element

/-- The JSON form of what a render gives. -/
def Rendering.json (rendering : Rendering) : Except RenderError Json :=
  rendering.result.map Surface.toJson

variable {W : Type} [Width W]

/-- Two trees are rendered to the same JSON, without a cache and through any cache. -/
def Element.SameJson [Profile W] [DecidableEq W] (engine : Engine W) (old new : Element) : Prop :=
  (∃ json, (old.render.answer engine).json = .ok json ∧
    (new.render.answer engine).json = .ok json) ∧
  ∀ cache : Cache W, ∃ json, (cache.answer engine old.render).1.json = .ok json ∧
    (cache.answer engine new.render).1.json = .ok json

/-- Accepted trees that stand for the same surface are rendered to the same JSON. -/
theorem Element.sameJson_of_surface_eq [Profile W] [DecidableEq W] {old new : Element}
    (oldAccepted : old.validate = .ok ()) (newAccepted : new.validate = .ok ())
    (same : (new.surface : Query W Surface) = old.surface) (engine : Engine W) :
    SameJson engine old new := by
  rw [SameJson, render_of_ok oldAccepted, render_of_ok newAccepted, same]
  constructor
  · exact ⟨(old.surface.answer engine).toJson, by rw [Query.answer_map]; rfl,
      by rw [Query.answer_map]; rfl⟩
  · intro cache
    exact ⟨(cache.answer engine old.surface).1.toJson, by rw [Cache.answer_map]; rfl,
      by rw [Cache.answer_map]; rfl⟩

theorem Element.Renamed.surface_eq {old new : Element} (renamed : old.Renamed new) :
    (old.surface : Query W Surface) = new.surface := by
  rw [← old.surface_canonical, renamed.canonical_eq, new.surface_canonical]

/-- Whatever names of its group each element has, a tree is accepted or not, and if it is, it
is rendered to the same JSON, without a cache and through any cache. -/
theorem Element.Renamed.renders_alike [Profile W] [DecidableEq W] {old new : Element}
    (renamed : old.Renamed new) (engine : Engine W) :
    (old.validate = .ok () ↔ new.validate = .ok ()) ∧
      (old.validate = .ok () →
        (∃ json, (old.render.answer engine).json = .ok json ∧
          (new.render.answer engine).json = .ok json) ∧
        ∀ cache : Cache W, ∃ json, (cache.answer engine old.render).1.json = .ok json ∧
          (cache.answer engine new.render).1.json = .ok json) := by
  refine ⟨renamed.accepted_iff, fun accepted => ?_⟩
  rw [render_of_ok accepted, render_of_ok (renamed.accepted_iff.1 accepted), renamed.surface_eq]
  constructor
  · exact ⟨(new.surface.answer engine).toJson, by rw [Query.answer_map]; rfl,
      by rw [Query.answer_map]; rfl⟩
  · intro cache
    exact ⟨(cache.answer engine new.surface).1.toJson, by rw [Cache.answer_map]; rfl,
      by rw [Cache.answer_map]; rfl⟩

/-- A message with a section and a divider, written with the given names. -/
def namedMessage (sectionName boldName strikeName dividerName : String) : Element :=
  (Element.ofKind "Blocks").append
    [.element ((Element.ofKind sectionName).append
      [.element ((Element.ofKind boldName).append
        [.text "all ", .element ((Element.ofKind strikeName).append [.text "new"])])]),
     .element (Element.ofKind dividerName)]

theorem renamed_namedMessage {sectionName boldName strikeName dividerName : String}
    {otherSection otherBold otherStrike otherDivider : String}
    (sections : AreAliases sectionName otherSection) (bolds : AreAliases boldName otherBold)
    (strikes : AreAliases strikeName otherStrike) (dividers : AreAliases dividerName otherDivider) :
    (namedMessage sectionName boldName strikeName dividerName).Renamed
      (namedMessage otherSection otherBold otherStrike otherDivider) := by
  have struck : Node.Renamed (.element ((Element.ofKind strikeName).append [.text "new"]))
      (.element ((Element.ofKind otherStrike).append [.text "new"])) :=
    .element strikes (.cons (.text _) .nil)
  exact .element (.inl rfl) (.cons
    (.element sections (.cons (.element bolds (.cons (.text _) (.cons struck .nil))) .nil))
    (.cons (.element dividers .nil) .nil))

/-- Either spelling of the message is accepted, and both have one JSON form. -/
theorem namedMessage_renders_alike :
    (namedMessage "Section" "b" "s" "Divider").Renamed (namedMessage "section" "strong" "del" "hr") ∧
      (namedMessage "section" "strong" "del" "hr").validate = .ok () ∧
      ((namedMessage "section" "strong" "del" "hr").render.answer Engine.reference).json =
        .ok (.array
          [.ofFields [("type", some (.string "section")),
            ("text", some (.ofFields [("type", some (.string "mrkdwn")),
              ("text", some (.string "*all ~new~*"))]))],
           .ofFields [("type", some (.string "divider"))]]) := by
  have renamed : (namedMessage "Section" "b" "s" "Divider").Renamed
      (namedMessage "section" "strong" "del" "hr") :=
    renamed_namedMessage (by decide) (by decide) (by decide) (by decide)
  have accepted : (namedMessage "Section" "b" "s" "Divider").validate = .ok () := by rfl
  obtain ⟨acceptance, alike⟩ := renamed.renders_alike Engine.reference
  obtain ⟨⟨json, old, new⟩, -⟩ := alike accepted
  refine ⟨renamed, acceptance.1 accepted, ?_⟩
  rw [new, ← old]
  rfl

end MessageBlocks
