import MessageBlocks.Proofs.Compile.Aliases

/-!
# Null attributes

An attribute whose value is null reads as absent. So any nulls of an accepted tree may be left
out: the checker has less to ask for, every reading of an attribute stays as it is, those that
try several names one after the other included, and the tree is rendered to the same JSON.
-/

namespace MessageBlocks

/-- What is found among the entries that pass a test is what was found before, if it passes. -/
theorem Keyed.find?_filter {κ α : Type} [LT κ] [LE κ] [DecidableEq κ] [Std.IsLinearOrder κ]
    [Std.LawfulOrderLT κ] (kept : κ × α → Bool) {entries : List (κ × α)} (sorted : Sorted entries)
    (key : κ) :
    find? key (entries.filter kept) =
      (find? key entries).filter fun value => kept (key, value) := by
  induction entries with
  | nil => rfl
  | cons head rest ih =>
      have headBelow := (List.pairwise_cons.1 sorted).1
      have following := ih (List.pairwise_cons.1 sorted).2
      obtain ⟨name, value⟩ := head
      by_cases same : key = name
      · subst same
        cases passes : kept (key, value) with
        | true => simp [find?, passes, Option.filter_some]
        | false =>
            have absent : find? key rest = none := find?_eq_none_of_below headBelow
            simp [find?, passes, following, absent, Option.filter_some]
      · cases passes : kept (name, value) <;> simp [find?, passes, same, following]

namespace Attributes

/-- The second attributes are the first ones without some of the nulls among them. -/
def Pruned (old new : Attributes) : Prop :=
  ∃ kept : String × AttributeValue → Bool,
    (∀ entry ∈ old.entries, entry.2.isNull = false → kept entry = true) ∧
      new.entries = old.entries.filter kept

variable {old new : Attributes} (pruned : old.Pruned new)

include pruned

theorem Pruned.entries : ∀ entry ∈ new.entries, entry ∈ old.entries := by
  obtain ⟨kept, -, same⟩ := pruned
  intro entry member
  rw [same] at member
  exact (List.mem_filter.1 member).1

/-- Null is read as absent, and so is what is left out. -/
theorem Pruned.get? (name : String) : new.get? name = old.get? name := by
  obtain ⟨kept, keepsValues, same⟩ := pruned
  rw [Attributes.get?, Attributes.get?, find?, find?, same, Keyed.find?_filter kept old.sorted]
  cases found : Keyed.find? name old.entries with
  | none => rfl
  | some value =>
      have member := Keyed.mem_of_find?_eq_some found
      cases isNull : value.isNull with
      | true => simp [isNull, Option.filter_some]
      | false => simp [isNull, Option.filter_some, keepsValues _ member isNull]

end Attributes

/-- `old.Pruned new`: the second node is the first one without some of the null attributes, at
any places. -/
inductive Node.Pruned : Node → Node → Prop where
  | text (content : String) : Pruned (.text content) (.text content)
  | element {kind : String} {attributes others : Attributes} {children nodes : List Node}
      (nulls : attributes.Pruned others) (below : List.Forall₂ Pruned children nodes) :
      Pruned (.element ⟨kind, attributes, children⟩) (.element ⟨kind, others, nodes⟩)

namespace Element

def Pruned (old new : Element) : Prop :=
  Node.Pruned (.element old) (.element new)

namespace Pruned

variable {old new : Element} (pruned : old.Pruned new)

include pruned

theorem kind : new.kind = old.kind := by
  cases pruned
  rfl

theorem attributes : old.attributes.Pruned new.attributes := by
  cases pruned with
  | element nulls below => exact nulls

theorem children : List.Forall₂ (Node.Both Pruned) old.children new.children := by
  cases pruned with
  | element nulls below =>
      apply below.imp
      intro node other pair
      cases pair with
      | text content => exact .text content
      | element nulls below => exact .element (.element nulls below)

end Pruned

theorem addsNothing_pruned : AddsNothing Pruned where
  kind := Pruned.kind
  entries pruned := pruned.attributes.entries
  elements pruned child member := by
    obtain ⟨node, nodeMember, pair⟩ := exists_of_mem_forall₂ pruned.children member
    cases pair with
    | element below => exact ⟨_, nodeMember, below⟩
  texts pruned content member _ := by
    obtain ⟨node, nodeMember, pair⟩ := exists_of_mem_forall₂ pruned.children member
    cases pair with
    | text content => exact nodeMember

theorem lookalike_pruned : Lookalike Pruned := by
  apply Lookalike.of_children
  · intro old new pruned
    exact .of_get? pruned.kind pruned.attributes.get?
  · exact Pruned.children

variable {W : Type} [Width W]

/-- Null attributes may be left out of an accepted tree: it is accepted still, and rendered to
the same JSON. -/
theorem Pruned.accepted_same_json [Profile W] [DecidableEq W] {old new : Element}
    (pruned : old.Pruned new) (accepted : old.validate = .ok ()) (engine : Engine W) :
    new.validate = .ok () ∧ SameJson engine old new := by
  have newAccepted := addsNothing_pruned.validate pruned accepted
  exact ⟨newAccepted,
    sameJson_of_surface_eq accepted newAccepted (lookalike_pruned.surface_eq pruned) engine⟩

end Element

/-- A message with a section beside a date picker, whose attributes are made from lists. -/
def dueMessage (attributes : List (String × AttributeValue) → Attributes) : Element :=
  ⟨"Blocks", ∅,
    [.element ⟨"Section", attributes [("blockId", .null), ("id", .string "due")],
      [.text "Due by",
       .element ⟨"DatePicker",
        attributes [("actionId", .string "day"), ("initialDate", .null), ("name", .null),
          ("placeholder", .null), ("value", .string "2024-05-01")], []⟩]⟩]⟩

/-- The null attributes of the message may be written or not. The block takes its name from `id`
and the picker its date from `value` in either case. -/
theorem dueMessage_same_json :
    (dueMessage .ofList).Pruned
        (dueMessage fun entries => .ofList (entries.filter (!·.2.isNull))) ∧
      (dueMessage .ofList).validate = .ok () ∧
      (dueMessage fun entries => .ofList (entries.filter (!·.2.isNull))).validate = .ok () ∧
      ((dueMessage fun entries => .ofList (entries.filter (!·.2.isNull))).render.answer
        Engine.reference).json = .ok (.array
          [.ofFields [("type", some (.string "section")),
            ("text", some (.ofFields [("type", some (.string "mrkdwn")),
              ("text", some (.string "Due by"))])),
            ("accessory", some (.ofFields [("type", some (.string "datepicker")),
              ("action_id", some (.string "day")),
              ("initial_date", some (.string "2024-05-01"))])),
            ("block_id", some (.string "due"))]]) := by
  have nulls {entries others : List (String × AttributeValue)}
      (same : (Attributes.ofList others).entries =
        (Attributes.ofList entries).entries.filter (!·.2.isNull)) :
      (Attributes.ofList entries).Pruned (Attributes.ofList others) :=
    ⟨(!·.2.isNull), by simp, same⟩
  have pruned : (dueMessage .ofList).Pruned
      (dueMessage fun entries => .ofList (entries.filter (!·.2.isNull))) :=
    .element ⟨fun _ => true, by simp, rfl⟩
      (.cons (.element (nulls rfl) (.cons (.text _) (.cons (.element (nulls rfl) .nil) .nil))) .nil)
  have accepted : (dueMessage .ofList).validate = .ok () := by rfl
  obtain ⟨newAccepted, ⟨json, old, new⟩, -⟩ := pruned.accepted_same_json accepted Engine.reference
  refine ⟨pruned, accepted, newAccepted, ?_⟩
  rw [new, ← old]
  rfl

end MessageBlocks
