import MessageBlocks.Proofs.Compile.Aliases
import MessageBlocks.Proofs.Grammar.Spelling

/-!
# Compilation and spellings

Compilation reads an attribute as text, as a boolean or as an integer, and none of these readings
shows whether a boolean or number was written as a string. So trees that differ only in that are
rendered alike, or rejected with the same violation.
-/

namespace MessageBlocks

open Number

variable {W : Type} [Width W]

namespace Element

theorem get?_spelled (element : Element) (name : String) :
    element.spelled.get? name = (element.get? name).map AttributeValue.spelled := by
  cases element
  exact Attributes.get?_spelled _ name

/-- No reading shows whether the values of attributes are strings. -/
theorem unseen_spelled : Unseen spelled where
  tag? element := by
    cases element
    rfl
  literal? element := by
    funext name
    rw [literal?, get?_spelled, Option.map_map, literal?]
    exact congrArg (Option.map · (element.get? name)) (funext AttributeValue.literal_spelled)
  bool? element := by
    funext name
    rw [bool?, get?_spelled, Option.bind_map, bool?]
    exact congrArg (Option.bind (element.get? name)) (funext AttributeValue.bool?_spelled)
  int? element := by
    funext name
    rw [int?, float?, get?_spelled, int?, float?]
    cases element.get? name with
    | none => rfl
    | some value => exact value.float?_spelled.1
  listNumber? element := by
    funext name
    have spelledValue := element.get?_spelled name
    rw [get?, get?] at spelledValue
    rw [Markup.numberAttribute?, spelledValue, Markup.numberAttribute?]
    cases element.attributes.get? name with
    | none => rfl
    | some value => exact value.float?_spelled.2
  children element := by
    have nodes : Node.spelled = Node.change spelled := by
      funext node
      cases node <;> rfl
    cases element
    rw [spelled, Node.allSpelled_eq_map, nodes]

end Element

/-- The render of a tree and its events are the same for all spellings of the tree. -/
theorem Element.Respelled.render_eq {old new : Element} (respelled : old.Respelled new) :
    (old.render : Query W Rendering) = new.render := by
  have kind : old.kind = new.kind := by
    cases respelled
    rfl
  have surface : (old.surface : Query W Surface) = new.surface := by
    rw [← unseen_spelled.surface_eq old, respelled.spelled_eq, unseen_spelled.surface_eq new]
  rw [render, render, respelled.validate_eq, surface, kind]

/-- Whichever values of a tree are written as the strings of their literals, it is accepted or
rejected with the same violation, and if it is accepted, it is rendered to the same JSON, without
a cache and through any cache. -/
theorem Element.Respelled.same_outcome [Profile W] [DecidableEq W] {old new : Element}
    (respelled : old.Respelled new) (engine : Engine W) :
    old.validate = new.validate ∧
      (old.validate = .ok () →
        (∃ json, (old.render.answer engine).json = .ok json ∧
          (new.render.answer engine).json = .ok json) ∧
        ∀ cache : Cache W, ∃ json, (cache.answer engine old.render).1.json = .ok json ∧
          (cache.answer engine new.render).1.json = .ok json) := by
  refine ⟨respelled.validate_eq, fun accepted => ?_⟩
  rw [← respelled.render_eq]
  constructor
  · have direct : (old.render.answer engine).json =
        .ok (old.surface.answer engine).toJson := by
      rw [render_of_ok accepted, Query.answer_map]
      rfl
    exact ⟨_, direct, direct⟩
  · intro cache
    have cached : (cache.answer engine old.render).1.json =
        .ok (cache.answer engine old.surface).1.toJson := by
      rw [render_of_ok accepted, Cache.answer_map]
      rfl
    exact ⟨_, cached, cached⟩

/-- A message with a numbered list and an input, with some attributes that need not be strings. -/
def typedMessage (start optional length : AttributeValue) : Element :=
  (Element.ofKind "Blocks").append
    [.element ((Element.ofKind "Section").append
      [.element (((Element.ofKind "ol").withAttribute "start" start).append
        [.element ((Element.ofKind "li").append [.text "first"])])]),
     .element ((((Element.ofKind "Input").withAttribute "label" (.string "Note")).withAttribute
        "optional" optional).append
      [.element ((Element.ofKind "Textarea").withAttribute "maxLength" length)])]

theorem respelled_typedMessage {start optional length : AttributeValue}
    {otherStart otherOptional otherLength : AttributeValue} (starts : start.Respelled otherStart)
    (optionals : optional.Respelled otherOptional) (lengths : length.Respelled otherLength) :
    (typedMessage start optional length).Respelled
      (typedMessage otherStart otherOptional otherLength) := by
  have item : Node.Respelled (.element ((Element.ofKind "li").append [.text "first"]))
      (.element ((Element.ofKind "li").append [.text "first"])) :=
    (Element.Respelled.ofKind "li").append (.cons (.text "first") .nil)
  have list := ((Element.Respelled.ofKind "ol").withAttribute "start" starts).append
    (.cons item .nil)
  have area := (Element.Respelled.ofKind "Textarea").withAttribute "maxLength" lengths
  have label : (AttributeValue.string "Note").Respelled (.string "Note") := .inl rfl
  have labelled := (Element.Respelled.ofKind "Input").withAttribute "label" label
  have input := (labelled.withAttribute "optional" optionals).append (.cons area .nil)
  exact (Element.Respelled.ofKind "Blocks").append
    (.cons ((Element.Respelled.ofKind "Section").append (.cons list .nil)) (.cons input .nil))

set_option maxRecDepth 4000 in
/-- Numbers and a boolean may stand as such or as strings in the message, which is the same JSON. -/
theorem typedMessage_same_outcome :
    (typedMessage (.number 2.5) (.bool true) (.number 150)).Respelled
        (typedMessage (.string "2.5") (.string "true") (.string "150")) ∧
      (typedMessage (.string "2.5") (.string "true") (.string "150")).validate = .ok () ∧
      ((typedMessage (.string "2.5") (.string "true") (.string "150")).render.answer
        Engine.reference).json =
        .ok (.array
          [.ofFields [("type", some (.string "section")),
            ("text", some (.ofFields [("type", some (.string "mrkdwn")),
              ("text", some (.string "2. first"))]))],
           .ofFields [("type", some (.string "input")),
            ("label", some (.ofFields [("type", some (.string "plain_text")),
              ("text", some (.string "Note"))])),
            ("element", some (.ofFields [("type", some (.string "plain_text_input")),
              ("multiline", some (.bool true)), ("max_length", some (.integer 150))])),
            ("optional", some (.bool true))]]) := by
  have start : (AttributeValue.number 2.5).literal = "2.5" := by decide +kernel
  have length : (AttributeValue.number 150).literal = "150" := by decide +kernel
  have respelled : (typedMessage (.number 2.5) (.bool true) (.number 150)).Respelled
      (typedMessage (.string "2.5") (.string "true") (.string "150")) :=
    respelled_typedMessage (.inr ⟨rfl, by rw [start]⟩) (.inr ⟨rfl, rfl⟩)
      (.inr ⟨rfl, by rw [length]⟩)
  have accepted : (typedMessage (.number 2.5) (.bool true) (.number 150)).validate = .ok () := by
    rfl
  obtain ⟨validated, alike⟩ := respelled.same_outcome Engine.reference
  obtain ⟨⟨json, typed, spelled⟩, -⟩ := alike accepted
  refine ⟨respelled, validated ▸ accepted, ?_⟩
  rw [spelled, ← typed]
  rfl

end MessageBlocks
