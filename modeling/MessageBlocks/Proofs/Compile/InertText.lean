import MessageBlocks.Proofs.Compile.Provenance
import MessageBlocks.Proofs.Markup.Quotes

/-!
# Text that cannot become control syntax

Where no markup is raw, every text in the markup of the client that a payload holds has been
rendered from a run of children in the tree. If no link and no time stands below these
children, whatever their text is, the payload text has no `<`, each `&` in it starts an
entity, and each `>` is the prefix of a quoted line.
-/

namespace MessageBlocks

open Text

variable {W : Type} [Width W]

/-- `Node.QuotesBelow nodes children`: a quote below the nodes has this markup inside. -/
def Node.QuotesBelow (nodes : List Node) (children : List Markup) : Prop :=
  ∃ quote, Node.Below nodes quote ∧ quote.tag? = some .blockquote ∧
    children = Node.markup quote.children

/-- A text that no client can read as control syntax, given the nodes from which it has been
rendered. -/
structure IsInertText (engine : Engine W) (nodes : List Node) (text : List Char) : Prop where
  noOpen : '<' ∉ text
  escaped : IsEscaped text
  prefixes : ∃ rows, text = unlines rows ∧
    ∀ row ∈ rows, IsInertRow engine (Node.QuotesBelow nodes) row
  noClose : (∀ inner, Node.Below nodes inner → inner.tag? ≠ some .blockquote) → '>' ∉ text

namespace Node

/-- Markup that is a quote comes from a quote. -/
theorem eq_of_markup?_blockquote {element : Element} {children : List Markup}
    (found : markup? (.element element) = some (.blockquote children)) :
    element.tag? = some .blockquote ∧ children = markup element.children := by
  cases tagged : element.tag? with
  | none =>
      rw [markup?_of_untagged tagged] at found
      cases found
  | some tag =>
      rw [markup?_of_tag tagged] at found
      cases tag <;> cases found
      exact ⟨rfl, rfl⟩

theorem eq_of_markup?_list {element : Element} {kind : ListKind} {items : List ListItem}
    (found : markup? (.element element) = some (.list kind items)) :
    items = listItems element.children := by
  cases tagged : element.tag? with
  | none =>
      rw [markup?_of_untagged tagged] at found
      cases found
  | some tag =>
      rw [markup?_of_tag tagged] at found
      cases tag <;> cases found <;> rfl

/-- The quotes in the markup of nodes are those below the nodes. -/
theorem quotesBelow_of_quotes {nodes : List Node} {children : List Markup}
    (quotes : Markup.Quotes (markup nodes) children) : QuotesBelow nodes children := by
  generalize same : markup nodes = top at quotes
  induction quotes generalizing nodes with
  | here member =>
      subst same
      rcases mem_markup member with ⟨_, -, equal⟩ | ⟨quote, quoteMember, found⟩
      · cases equal
      · obtain ⟨tagged, inside⟩ := eq_of_markup?_blockquote found
        exact ⟨quote, ⟨quote, quoteMember, .root⟩, tagged, inside⟩
  | quote member inside ih =>
      subst same
      rcases mem_markup member with ⟨_, -, equal⟩ | ⟨outer, outerMember, found⟩
      · cases equal
      · obtain ⟨quote, below, isQuote⟩ := ih (eq_of_markup?_blockquote found).2.symm
        exact ⟨quote, below.of_children outerMember, isQuote⟩
  | item member among inside ih =>
      subst same
      rcases mem_markup member with ⟨_, -, equal⟩ | ⟨list, listMember, found⟩
      · cases equal
      · rw [eq_of_markup?_list found] at among
        obtain ⟨child, childMember, children⟩ := mem_listItems among
        obtain ⟨quote, below, isQuote⟩ := ih children.symm
        exact ⟨quote, (below.of_children childMember).of_children listMember, isQuote⟩

end Node

/-- Rendered nodes without links and times are inert. -/
theorem isInertText_render {engine : Engine W} (bracketless : engine.Bracketless)
    (noAmpersand : ∀ width, '&' ∉ engine.indent width) {nodes : List Node}
    (formed : Markup.AreFormed (Node.markup nodes))
    (noToken : ∀ inner, Node.Below nodes inner →
      inner.tag? ≠ some .link ∧ inner.tag? ≠ some .time) :
    IsInertText engine nodes ((Markup.render (Node.markup nodes)).answer engine) := by
  have tokenless := Node.areTokenless_markup noToken
  obtain ⟨rows, same, inertRows⟩ :=
    Markup.exists_rows_render bracketless noAmpersand formed tokenless
  have inert : ∀ row ∈ rows, IsInertRow engine (Node.QuotesBelow nodes) row :=
    fun row member => (inertRows row member).mono fun _ => Node.quotesBelow_of_quotes
  refine ⟨?_, (Markup.render_holds noAmpersand formed tokenless).1, ⟨rows, same, inert⟩, ?_⟩
  · rw [same]
    intro member
    obtain ⟨row, rowMember, inRow⟩ := mem_of_mem_unlines (by decide) member
    exact (inert row rowMember).noOpen inRow
  · intro noQuote
    rw [same]
    intro member
    obtain ⟨row, rowMember, inRow⟩ := mem_of_mem_unlines (by decide) member
    obtain ⟨before, after, split⟩ := List.append_of_mem inRow
    obtain ⟨-, -, -, ⟨quote, below, isQuote, -⟩, -⟩ := (inert row rowMember).prefixes _ _ split
    exact noQuote quote below isQuote

/-- Every text in the markup of the client that an accepted tree emits comes from a run of
children or is raw, and it is inert if it comes from children with no link and no time below
them. -/
theorem payload_isInertText (root : Element) (engine : Engine W)
    (glyphs : ∀ character ∈ ['&', '<', '>'], ∀ entry ∈ engine.metrics.spaces,
      character ∉ entry.1.toList)
    (accepted : root.validate = .ok ()) :
    (root.surface.answer engine).toJson.Everywhere fun part =>
      part.HasType ["mrkdwn"] →
        ∃ text, part.member? "text" = some (.string text) ∧ root.Writes engine text ∧
          ∀ element nodes, root.Within element → nodes <:+: element.children →
            text.toList = (Markup.render (Node.markup nodes)).answer engine →
            (∀ inner, Node.Below nodes inner →
              inner.tag? ≠ some .link ∧ inner.tag? ≠ some .time) →
            IsInertText engine nodes text.toList := by
  have grammatical := Grammatical.of_validate accepted
  have bracketless : engine.Bracketless := fun width =>
    ⟨Engine.notMem_indent (glyphs '<' (by decide)) width,
      Engine.notMem_indent (glyphs '>' (by decide)) width⟩
  have noAmpersand := Engine.notMem_indent (glyphs '&' (by decide))
  intro part inside marked
  obtain ⟨text, member, writes⟩ := root.everywhere_writes engine part inside marked
  refine ⟨text, member, writes, fun element nodes within run rendered noToken => ?_⟩
  rw [rendered]
  exact isInertText_render bracketless noAmpersand (grammatical.areFormed_run within run) noToken

/-- A section with all three escaped characters and a quote. -/
def quoteSection : Element :=
  (Element.ofKind "Section").append
    [.text "a > b & <c>", .element ((Element.ofKind "blockquote").append [.text "d"])]

def quoteMessage : Element :=
  (Element.ofKind "Blocks").append [.element quoteSection]

/-- The text part of the payload of the message. -/
def quoteText : Json :=
  .ofFields [("type", some (.string "mrkdwn")),
    ("text", some (.string "a &gt; b &amp; &lt;c&gt;\n> d"))]

theorem part_quoteText :
    (quoteMessage.surface.answer Engine.reference).toJson.Part quoteText := by
  have payload : (quoteMessage.surface.answer Engine.reference).toJson =
      .array [.object [("text", quoteText), ("type", .string "section")]] := by rfl
  rw [payload]
  exact (Json.Part.self.item List.mem_cons_self).member List.mem_cons_self

/-- The text of the message is inert: its one `>` outside entities is that of the quote. -/
theorem quoteMessage_isInertText :
    (∀ character ∈ ['&', '<', '>'], ∀ entry ∈ Engine.reference.metrics.spaces,
      character ∉ entry.1.toList) ∧ quoteMessage.validate = .ok () ∧
      IsInertText Engine.reference quoteSection.children
        "a &gt; b &amp; &lt;c&gt;\n> d".toList := by
  have glyphs : ∀ character ∈ ['&', '<', '>'], ∀ entry ∈ Engine.reference.metrics.spaces,
      character ∉ entry.1.toList := by
    intro character among entry member inEntry
    have code := Metrics.code_of_mem_reference member inEntry
    simp only [List.mem_cons, List.not_mem_nil, or_false] at among
    rcases among with rfl | rfl | rfl <;> exact absurd code (by decide)
  have accepted : quoteMessage.validate = .ok () := by rfl
  have noToken : ∀ inner, Node.Below quoteSection.children inner →
      inner.tag? ≠ some .link ∧ inner.tag? ≠ some .time := by
    rintro inner ⟨quote, member, inQuote⟩
    have isQuote := List.mem_singleton.1 ((List.mem_cons.1 member).resolve_left nofun)
    obtain rfl := Node.element.inj isQuote
    rcases Element.within_iff.1 inQuote with rfl | ⟨_, member, _⟩
    · decide
    · cases List.mem_singleton.1 member
  have marked : quoteText.HasType ["mrkdwn"] := ⟨_, List.mem_cons_self, by rfl⟩
  obtain ⟨text, found, -, inert⟩ :=
    payload_isInertText quoteMessage Engine.reference glyphs accepted quoteText part_quoteText
      marked
  obtain rfl : "a &gt; b &amp; &lt;c&gt;\n> d" = text := by
    have listed : quoteText.member? "text" =
        some (.string "a &gt; b &amp; &lt;c&gt;\n> d") := by rfl
    rw [listed] at found
    exact Json.string.inj (Option.some.inj found)
  have within : quoteMessage.Within quoteSection :=
    Element.Within.root.child List.mem_cons_self
  exact ⟨glyphs, accepted, inert quoteSection _ within List.infix_rfl (by rfl) noToken⟩

end MessageBlocks
