import MessageBlocks.Proofs.Compile.Aliases

/-!
# Indentation

A front end that lays out a tree over several lines leaves blank texts between the elements. Where
the grammar has no text, such texts may be put in or left out: the checker passes over them, and
what is compiled there is the child elements alone. They show in one place only. A raw `Mrkdwn`
passes on all the text below it verbatim, and with it the blanks between the items of a list.
-/

namespace MessageBlocks

/-- Whether the grammar has a rule for a type name, and no text in it. -/
def Grammar.isTextless (kind : String) : Bool :=
  (Grammar.rule? kind).any fun rule => !rule.allowsChild textKind

namespace Node

/-- The children of an element of a kind, without the blank texts if the kind has no text. -/
def besidesIndents (kind : String) (children : List Node) : List Node :=
  if Grammar.isTextless kind then children.filter (!·.isBlank) else children

/-- `old.Reindented new`: the second node is the first one with blank texts put in or left out,
at any places below it where the grammar has no text. -/
inductive Reindented : Node → Node → Prop where
  | text (content : String) : Reindented (.text content) (.text content)
  | element {kind : String} {attributes : Attributes} {children nodes : List Node}
      (below : List.Forall₂ Reindented (besidesIndents kind children)
        (besidesIndents kind nodes)) :
      Reindented (.element ⟨kind, attributes, children⟩) (.element ⟨kind, attributes, nodes⟩)

theorem mem_besidesIndents {kind : String} {children : List Node} {node : Node} :
    node ∈ besidesIndents kind children ↔
      node ∈ children ∧ (Grammar.isTextless kind = true → node.isBlank = false) := by
  rw [besidesIndents]
  split
  · next textless => simp [textless]
  · next texts => simp [texts]

/-- What is collected from child elements alone does not depend on the indents. -/
theorem flatMap_besidesIndents {α : Type} {collect : Node → List α}
    (texts : ∀ content, collect (.text content) = []) (kind : String) (children : List Node) :
    (besidesIndents kind children).flatMap collect = children.flatMap collect := by
  rw [besidesIndents]
  split
  · induction children with
    | nil => rfl
    | cons node rest ih =>
        rw [List.filter_cons, List.flatMap_cons, ← ih]
        cases node with
        | text content => cases blank : isBlank (.text content) <;> simp [texts]
        | element child => simp [isBlank]
  · rfl

end Node

mutual

/-- The texts that the raw `Mrkdwn` elements of a node pass on, in document order. -/
def Node.verbatimTexts : Node → List (List Char)
  | .text _ => []
  | .element element => Element.verbatimTexts element

def Element.verbatimTexts : Element → List (List Char)
  | ⟨kind, attributes, children⟩ =>
      (if Element.isVerbatim ⟨kind, attributes, children⟩ then [Node.rawTexts children] else []) ++
        Node.allVerbatimTexts children

def Node.allVerbatimTexts : List Node → List (List Char)
  | [] => []
  | node :: rest => Node.verbatimTexts node ++ Node.allVerbatimTexts rest

end

theorem Node.allVerbatimTexts_eq_flatMap (nodes : List Node) :
    allVerbatimTexts nodes = nodes.flatMap verbatimTexts := by
  induction nodes with
  | nil => rfl
  | cons node rest ih => rw [allVerbatimTexts, ih, List.flatMap_cons]

namespace Element

/-- The text that an element passes on itself, if it is a raw `Mrkdwn`. -/
def ownVerbatimText (element : Element) : List (List Char) :=
  if element.isVerbatim then [Node.rawTexts element.children] else []

theorem verbatimTexts_eq (element : Element) :
    element.verbatimTexts = element.ownVerbatimText ++
      (Node.besidesIndents element.kind element.children).flatMap Node.verbatimTexts := by
  rw [Node.flatMap_besidesIndents fun _ => rfl, ← Node.allVerbatimTexts_eq_flatMap]
  cases element
  rfl

def Reindented (old new : Element) : Prop :=
  Node.Reindented (.element old) (.element new)

namespace Reindented

variable {old new : Element} (reindented : old.Reindented new)

include reindented

theorem kind : new.kind = old.kind := by
  cases reindented
  rfl

theorem attributes : new.attributes = old.attributes := by
  cases reindented
  rfl

theorem children : List.Forall₂ (Node.Both Reindented)
    (Node.besidesIndents old.kind old.children) (Node.besidesIndents new.kind new.children) := by
  cases reindented with
  | element below =>
      apply below.imp
      intro node other pair
      cases pair with
      | text content => exact .text content
      | element below => exact .element (.element below)

/-- What can be seen below the second element is, but for indents, below the first one too. -/
theorem exists_original {node : Node} (member : node ∈ new.children)
    (visible : node.isBlank = false) :
    ∃ original, original ∈ old.children ∧ Node.Both Reindented original node := by
  have counts : node ∈ Node.besidesIndents new.kind new.children :=
    Node.mem_besidesIndents.2 ⟨member, fun _ => visible⟩
  obtain ⟨original, originalMember, pair⟩ := exists_of_mem_forall₂ reindented.children counts
  exact ⟨original, (Node.mem_besidesIndents.1 originalMember).1, pair⟩

theorem readsLike : old.ReadsLike new :=
  .of_get? reindented.kind fun name => by rw [reindented.attributes]

theorem isVerbatim : new.isVerbatim = old.isVerbatim := by
  have reads := reindented.readsLike
  rw [Element.isVerbatim, reads.tag?, reads.isSet, Element.isVerbatim]

theorem length_ownVerbatimText : old.ownVerbatimText.length = new.ownVerbatimText.length := by
  rw [ownVerbatimText, ownVerbatimText, reindented.isVerbatim]
  split <;> rfl

end Reindented

/-- Blank texts put in or left out change what raw elements pass on, but not how many they are. -/
theorem Reindented.length_verbatimTexts (old : Element) : ∀ new, old.Reindented new →
    old.verbatimTexts.length = new.verbatimTexts.length := by
  induction old using Element.induction with
  | step old ih =>
      intro new reindented
      -- The indents hold no elements, so the elements below are related one by one.
      have inside : ∀ node ∈ Node.besidesIndents old.kind old.children, node ∈ old.children :=
        fun node member => (Node.mem_besidesIndents.1 member).1
      have pairs := (List.forall₂_and_left _ _).2 ⟨inside, reindented.children⟩
      rw [verbatimTexts_eq, verbatimTexts_eq, List.length_append, List.length_append,
        reindented.length_ownVerbatimText, List.length_flatMap, List.length_flatMap]
      congr 2
      symm
      apply map_eq_of_forall₂ pairs
      rintro node other ⟨member, pair⟩
      cases pair with
      | text content => rfl
      | element both => exact (ih _ member _ both).symm

theorem addsNothing_reindented : AddsNothing Reindented where
  kind := Reindented.kind
  entries reindented entry member := by rwa [reindented.attributes] at member
  elements reindented child member := by
    obtain ⟨original, originalMember, pair⟩ := reindented.exists_original member rfl
    cases pair with
    | element below => exact ⟨_, originalMember, below⟩
  texts reindented content member visible := by
    rw [ne_eq, Text.trim_eq_nil_iff, Bool.not_eq_true] at visible
    obtain ⟨original, originalMember, pair⟩ := reindented.exists_original member visible
    cases pair with
    | text content => exact originalMember

/-- The second element is the first one with other indents, and the raw elements of both pass on
the same texts. -/
def SameVerbatim (old new : Element) : Prop :=
  old.Reindented new ∧ old.verbatimTexts = new.verbatimTexts

/-- The texts are passed on by the same elements, so they are the same element by element. -/
theorem SameVerbatim.parts {old new : Element} (both : old.SameVerbatim new) :
    old.ownVerbatimText = new.ownVerbatimText ∧
      List.Forall₂ (Node.Both SameVerbatim) (Node.besidesIndents old.kind old.children)
        (Node.besidesIndents new.kind new.children) := by
  obtain ⟨reindented, same⟩ := both
  -- All texts in a row are cut where the elements are: related parts have as many texts.
  rw [verbatimTexts_eq, verbatimTexts_eq] at same
  obtain ⟨own, below⟩ := List.append_inj same reindented.length_ownVerbatimText
  have lengths (node other : Node) (pair : Node.Both Reindented node other) :
      node.verbatimTexts.length = other.verbatimTexts.length := by
    cases pair with
    | text content => rfl
    | element both => exact Reindented.length_verbatimTexts _ _ both
  refine ⟨own, (forall₂_of_flatMap_eq reindented.children lengths below).imp ?_⟩
  rintro node other ⟨pair, texts⟩
  cases pair with
  | text content => exact .text content
  | element both => exact .element ⟨both, texts⟩

theorem filterMap_besidesIndents (element : Element) :
    (Node.besidesIndents element.kind element.children).filterMap Node.element? =
      element.elements := by
  rw [List.filterMap_eq_flatMap_toList, Node.flatMap_besidesIndents fun _ => rfl,
    ← List.filterMap_eq_flatMap_toList, elements]

/-- Texts are rendered only where the grammar has them, and there blank texts count. -/
theorem besidesIndents_of_showsText {element : Element} (shown : element.showsText = true) :
    Node.besidesIndents element.kind element.children = element.children := by
  have textTag : Tag.ofName? textKind = some .text := by decide
  simp only [showsText, Bool.and_eq_true, Option.any_eq_true] at shown
  obtain ⟨⟨tag, tagged, allowed⟩, -⟩ := shown
  have notText : tag ≠ .text := by
    rintro rfl
    cases allowed
  have ruled : Grammar.rule? element.kind = some tag.rule :=
    Grammar.rule?_eq_some_iff.2 ⟨tag, notText, Tag.ofName?_eq_some_iff.1 tagged, rfl⟩
  have hasText : Grammar.isTextless element.kind = false := by
    rw [Grammar.isTextless, ruled, Option.any_some, Rule.allowsChild, textTag]
    simpa using allowed
  rw [Node.besidesIndents, if_neg (by rw [hasText]; exact Bool.false_ne_true)]

theorem lookalike_sameVerbatim : Lookalike SameVerbatim where
  reads both := both.1.readsLike
  elements {old new} both := by
    rw [← filterMap_besidesIndents old, ← filterMap_besidesIndents new]
    exact Node.Both.elements both.parts.2
  children {old new} both shown := by
    have newShown : new.showsText = true := by
      rw [showsText, both.1.readsLike.tag?, both.1.isVerbatim]
      exact shown
    rw [← besidesIndents_of_showsText shown, ← besidesIndents_of_showsText newShown]
    exact both.parts.2
  rawTexts {old new} both verbatim := by
    have newVerbatim := both.1.isVerbatim.trans verbatim
    have own := both.parts.1
    rw [ownVerbatimText, ownVerbatimText, if_pos verbatim, if_pos newVerbatim] at own
    exact (List.head_eq_of_cons_eq own).symm

variable {W : Type} [Width W]

/-- Blank texts may be put in or left out of an accepted tree wherever the grammar has no text: it
is accepted still, and rendered to the same JSON if its raw elements pass on the same texts. -/
theorem Reindented.accepted_same_json_of_verbatim [Profile W] [DecidableEq W] {old new : Element}
    (reindented : old.Reindented new) (accepted : old.validate = .ok ()) (engine : Engine W) :
    new.validate = .ok () ∧
      (old.verbatimTexts = new.verbatimTexts → SameJson engine old new) := by
  have newAccepted := addsNothing_reindented.validate reindented accepted
  refine ⟨newAccepted, fun sameTexts => ?_⟩
  have both : old.SameVerbatim new := ⟨reindented, sameTexts⟩
  exact sameJson_of_surface_eq accepted newAccepted (lookalike_sameVerbatim.surface_eq both) engine

end Element

/-- A message with a list, a raw text and a button, laid out with the given nodes between its
elements. -/
def laidOutMessage (indents : List Node) : Element :=
  ⟨"Blocks", ∅, indents ++
    [.element ⟨"Section", ∅,
      [.text "Steps", .element ⟨"br", ∅, indents⟩,
       .element ⟨"ul", ∅, indents ++ [.element ⟨"li", ∅, [.text "one"]⟩] ++ indents⟩]⟩] ++
    indents ++
    [.element ⟨"Context", ∅,
      [.element ⟨"Mrkdwn", .ofList [("raw", .bool true)], [.text "as \n is"]⟩]⟩,
     .element ⟨"Actions", ∅, indents ++
      [.element ⟨"Button", .ofList [("name", .string "go")], [.text "Go"]⟩]⟩]⟩

set_option maxRecDepth 2000 in
/-- The message may be laid out over several lines, down to the inside of a line break. Its raw
text stays the same. -/
theorem laidOutMessage_same_json :
    (laidOutMessage []).Reindented (laidOutMessage [.text "\n", .text "\t "]) ∧
      (laidOutMessage []).validate = .ok () ∧
      (laidOutMessage [.text "\n", .text "\t "]).validate = .ok () ∧
      ((laidOutMessage [.text "\n", .text "\t "]).render.answer Engine.reference).json =
        .ok (.array
          [.ofFields [("type", some (.string "section")),
            ("text", some (.ofFields [("type", some (.string "mrkdwn")),
              ("text", some (.string "Steps\n\n• one"))]))],
           .ofFields [("type", some (.string "context")),
            ("elements", some (.array [.ofFields [("type", some (.string "mrkdwn")),
              ("text", some (.string "as \n is"))]]))],
           .ofFields [("type", some (.string "actions")),
            ("elements", some (.array [.ofFields [("type", some (.string "button")),
              ("text", some (.ofFields [("type", some (.string "plain_text")),
                ("text", some (.string "Go"))])),
              ("action_id", some (.string "go"))]]))]]) := by
  have lineBreak : Node.Reindented (.element ⟨"br", ∅, []⟩)
      (.element ⟨"br", ∅, [.text "\n", .text "\t "]⟩) := .element .nil
  have item : Node.Reindented (.element ⟨"li", ∅, [.text "one"]⟩)
      (.element ⟨"li", ∅, [.text "one"]⟩) := .element (.cons (.text "one") .nil)
  have raw (attributes : Attributes) : Node.Reindented
      (.element ⟨"Mrkdwn", attributes, [.text "as \n is"]⟩)
      (.element ⟨"Mrkdwn", attributes, [.text "as \n is"]⟩) := .element (.cons (.text _) .nil)
  have button (attributes : Attributes) : Node.Reindented
      (.element ⟨"Button", attributes, [.text "Go"]⟩)
      (.element ⟨"Button", attributes, [.text "Go"]⟩) := .element (.cons (.text "Go") .nil)
  have reindented : (laidOutMessage []).Reindented (laidOutMessage [.text "\n", .text "\t "]) :=
    .element (.cons
      (.element (.cons (.text "Steps") (.cons lineBreak (.cons (.element (.cons item .nil)) .nil))))
      (.cons (.element (.cons (raw _) .nil)) (.cons (.element (.cons (button _) .nil)) .nil)))
  have accepted : (laidOutMessage []).validate = .ok () := by rfl
  obtain ⟨newAccepted, alike⟩ := reindented.accepted_same_json_of_verbatim accepted Engine.reference
  obtain ⟨⟨json, old, new⟩, -⟩ := alike rfl
  refine ⟨reindented, accepted, newAccepted, ?_⟩
  rw [new, ← old]
  rfl

/-- A message whose raw text is a list with one item and the given nodes in front of it. -/
def rawListMessage (indents : List Node) : Element :=
  ⟨"Blocks", ∅, [.element ⟨"Section", ∅, [.element ⟨"Mrkdwn", .ofList [("raw", .bool true)],
    [.element ⟨"ul", ∅, indents ++ [.element ⟨"li", ∅, [.text "one"]⟩]⟩]⟩]⟩]⟩

/-- The text of the first block of a message. -/
def Json.firstText? (message : Json) : Option String := do
  let blocks ← message.items?
  let block ← blocks.head?
  let text ← block.member? "text"
  let content ← text.member? "text"
  content.string?

/-- A blank text in the list of a raw `Mrkdwn` shows, although lists have no text. -/
theorem rawListMessage_differs :
    (rawListMessage []).Reindented (rawListMessage [.text " "]) ∧
      (rawListMessage []).validate = .ok () ∧
      (rawListMessage [.text " "]).validate = .ok () ∧
      ¬ Element.SameJson Engine.reference (rawListMessage []) (rawListMessage [.text " "]) := by
  have item : Node.Reindented (.element ⟨"li", ∅, [.text "one"]⟩)
      (.element ⟨"li", ∅, [.text "one"]⟩) := .element (.cons (.text "one") .nil)
  have list : Node.Reindented (.element ⟨"ul", ∅, [.element ⟨"li", ∅, [.text "one"]⟩]⟩)
      (.element ⟨"ul", ∅, [.text " ", .element ⟨"li", ∅, [.text "one"]⟩]⟩) :=
    .element (.cons item .nil)
  refine ⟨.element (.cons (.element (.cons (.element (.cons list .nil)) .nil)) .nil), rfl, rfl, ?_⟩
  rintro ⟨⟨json, old, new⟩, -⟩
  have plain : some "one" = json.firstText? := congrArg Json.firstText? (Except.ok.inj old)
  have indented : some " one" = json.firstText? := congrArg Json.firstText? (Except.ok.inj new)
  exact absurd (plain.trans indented.symm) (by decide)

end MessageBlocks
