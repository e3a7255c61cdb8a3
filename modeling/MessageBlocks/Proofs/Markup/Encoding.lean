import MessageBlocks.Markup.Encoding

/-!
# Markup read back from JSON

The JSON form of a node names its constructor, either as the only member of an object that holds
the content, or alone if there is no content. Such a form is read back to the node. It does not
matter how deep the node is, which strings and numbers it has, and which of its optional fields are
absent.
-/

namespace MessageBlocks

/-! The form of markup in JSON, which says nothing about how it is written or read. -/

mutual

/-- The form of a node: an object whose only member is named for the constructor, or `LineBreak`. -/
inductive Json.IsNodeForm : Json → Prop
  | text (content : String) : IsNodeForm (.object [("Text", .string content)])
  | children {name : String} {nodes : List Json}
      (named : name ∈ ["Bold", "Italic", "Strike", "Code", "Paragraph", "Blockquote",
        "Preformatted"])
      (forms : AreNodeForms nodes) : IsNodeForm (.object [(name, .array nodes)])
  | link (target : Option String) {nodes : List Json} (forms : AreNodeForms nodes) :
      IsNodeForm (.object [("Link",
        .object [("children", .array nodes), ("href", .ofOption .string target)])])
  | time (timestamp : Option Int64) (fallback : Option String) {nodes : List Json}
      (forms : AreNodeForms nodes) :
      IsNodeForm (.object [("Time",
        .object [("fallback", .ofOption .string fallback), ("format", .array nodes),
          ("timestamp", .ofOption .ofInt64 timestamp)])])
  | lineBreak : IsNodeForm (.string "LineBreak")
  | unordered {items : List Json} (forms : AreItemForms items) :
      IsNodeForm (.object [("List",
        .object [("items", .array items), ("kind", .string "Unordered")])])
  | ordered {numbering : String} (start : Int64) {items : List Json}
      (named : numbering ∈ ["Decimal", "LowerAlpha", "UpperAlpha", "LowerRoman", "UpperRoman"])
      (forms : AreItemForms items) :
      IsNodeForm (.object [("List",
        .object [("items", .array items), ("kind",
          .object [("Ordered",
            .object [("numbering", .string numbering), ("start", .ofInt64 start)])])])])

/-- The forms of a list of nodes. -/
inductive Json.AreNodeForms : List Json → Prop
  | nil : AreNodeForms []
  | cons {node : Json} {nodes : List Json} (form : IsNodeForm node) (forms : AreNodeForms nodes) :
      AreNodeForms (node :: nodes)

/-- The forms of the items of a list. -/
inductive Json.AreItemForms : List Json → Prop
  | nil : AreItemForms []
  | cons (number : Option Int64) {nodes items : List Json} (form : AreNodeForms nodes)
      (forms : AreItemForms items) :
      AreItemForms (.object [("children", .array nodes), ("value", .ofOption .ofInt64 number)] ::
        items)

end

theorem Numbering.name_mem (numbering : Numbering) :
    numbering.name ∈ ["Decimal", "LowerAlpha", "UpperAlpha", "LowerRoman", "UpperRoman"] := by
  cases numbering <;> decide

mutual

theorem Markup.isNodeForm_toJson : ∀ node : Markup, node.toJson.IsNodeForm
  | .text content => .text content
  | .bold children | .italic children | .strike children | .code children
  | .paragraph children | .blockquote children | .preformatted children =>
      .children (by decide) (Markup.areNodeForms_toJsons children)
  | .link target children => .link target (Markup.areNodeForms_toJsons children)
  | .time timestamp fallback format =>
      .time timestamp fallback (Markup.areNodeForms_toJsons format)
  | .lineBreak => .lineBreak
  | .list .unordered items => .unordered (ListItem.areItemForms_toJsons items)
  | .list (.ordered numbering start) items =>
      .ordered start numbering.name_mem (ListItem.areItemForms_toJsons items)

theorem Markup.areNodeForms_toJsons : ∀ nodes : List Markup,
    Json.AreNodeForms (Markup.toJsons nodes)
  | [] => .nil
  | node :: rest => .cons (Markup.isNodeForm_toJson node) (Markup.areNodeForms_toJsons rest)

theorem ListItem.areItemForms_toJsons : ∀ items : List ListItem,
    Json.AreItemForms (ListItem.toJsons items)
  | [] => .nil
  | ⟨number, children⟩ :: rest =>
      .cons number (Markup.areNodeForms_toJsons children) (ListItem.areItemForms_toJsons rest)

end

namespace Json

theorem int64?_ofInt64 (value : Int64) : (ofInt64 value).int64? = some value := by
  have least := value.le_toInt
  have greatest := value.toInt_lt
  have fits : Number.fitsInt64 value.toInt = true := by
    simp only [Number.fitsInt64, Number.minInt64, Number.maxInt64, Bool.and_eq_true,
      decide_eq_true_eq, show Number.powerOfTwo 63 = 2 ^ 63 from rfl]
    omega
  rw [ofInt64, int64?, if_pos fits, Int64.ofInt_toInt]

/-- An optional value is written as null or as itself, which is not null. -/
theorem optional?_ofOption {α : Type} {decode : Json → Option α} {encode : α → Json}
    (shown : ∀ value, encode value ≠ .null) (decoded : ∀ value, decode (encode value) = some value)
    (content : Option α) : optional? decode (some (ofOption encode content)) = some content := by
  cases content with
  | none => rfl
  | some value => simp [ofOption, optional?, shown value, decoded value]

theorem optional?_ofInt64 (content : Option Int64) :
    optional? int64? (some (ofOption ofInt64 content)) = some content :=
  optional?_ofOption nofun int64?_ofInt64 content

theorem optional?_ofString (content : Option String) :
    optional? string? (some (ofOption string content)) = some content := by
  have shown (text : String) : string text ≠ .null := nofun
  exact optional?_ofOption shown (fun _ => rfl) content

end Json

theorem Numbering.ofJson?_name (numbering : Numbering) :
    ofJson? (.string numbering.name) = some numbering := by
  cases numbering <;> rfl

theorem ListKind.ofJson?_toJson (kind : ListKind) : ofJson? kind.toJson = some kind := by
  cases kind with
  | unordered => rfl
  | ordered numbering start =>
      simp [toJson, ofJson?, Json.single, Json.record?, Keyed.find?, Numbering.ofJson?_name,
        Json.int64?_ofInt64]

namespace Markup

theorem ofVariant?_array {name : String} (notLink : name ≠ "Link") (notTime : name ≠ "Time")
    (notList : name ≠ "List") (items : List Json) :
    ofVariant? name (.array items) = ofContent? name (ofItems? items) := by
  rw [ofVariant?]
  · exact notLink
  · exact notTime
  · exact notList

variable {children : List Markup}

theorem ofJson?_link (target : Option String)
    (below : ofItems? (toJsons children) = some children) :
    ofJson? (toJson (.link target children)) = some (.link target children) := by
  simp [toJson, ofJson?, Json.single, ofVariant?, ofMember?, linkOfFields?, linkFields,
    Json.record?, Keyed.find?, below, Json.optional?_ofString]

theorem ofJson?_time (timestamp : Option Int64) (fallback : Option String)
    (below : ofItems? (toJsons children) = some children) :
    ofJson? (toJson (.time timestamp fallback children)) =
      some (.time timestamp fallback children) := by
  have passedOver (rest : List (String × Json)) :
      ofMember? "format" (("fallback", .ofOption .string fallback) :: rest) =
        ofMember? "format" rest := by
    cases fallback <;> simp [Json.ofOption, ofMember?]
  simp [toJson, ofJson?, Json.single, ofVariant?, passedOver, ofMember?, timeOfFields?, timeFields,
    Json.record?, Keyed.find?, below, Json.optional?_ofString, Json.optional?_ofInt64]

theorem ofJson?_list (kind : ListKind) {items : List ListItem}
    (below : ListItem.ofItems? (ListItem.toJsons items) = some items) :
    ofJson? (toJson (.list kind items)) = some (.list kind items) := by
  simp [toJson, ofJson?, Json.single, ofVariant?, ListItem.ofMember?, listOfFields?, listFields,
    Json.record?, Keyed.find?, below, kind.ofJson?_toJson]

end Markup

theorem ListItem.ofJson?_fields (number : Option Int64) {children : List Markup}
    (below : Markup.ofItems? (Markup.toJsons children) = some children) :
    ofJson? (.object [("children", .array (Markup.toJsons children)),
        ("value", .ofOption .ofInt64 number)]) = some ⟨number, children⟩ := by
  simp [ofJson?, Markup.ofMember?, ofFields?, fieldNames, Json.record?, Keyed.find?, below,
    Json.optional?_ofInt64]

mutual

theorem Markup.ofJson?_toJson : ∀ node : Markup, Markup.ofJson? node.toJson = some node
  | .text _ | .lineBreak => rfl
  | .bold children | .italic children | .strike children | .code children
  | .paragraph children | .blockquote children | .preformatted children => by
      have below := Markup.ofItems?_toJsons children
      rw [Markup.toJson, Json.single, Markup.ofJson?,
        Markup.ofVariant?_array (by decide) (by decide) (by decide), below]
      rfl
  | .link target children => Markup.ofJson?_link target (Markup.ofItems?_toJsons children)
  | .time timestamp fallback format =>
      Markup.ofJson?_time timestamp fallback (Markup.ofItems?_toJsons format)
  | .list kind items => Markup.ofJson?_list kind (ListItem.ofItems?_toJsons items)

theorem Markup.ofItems?_toJsons : ∀ nodes : List Markup,
    Markup.ofItems? (Markup.toJsons nodes) = some nodes
  | [] => rfl
  | node :: rest => by
      rw [Markup.toJsons, Markup.ofItems?, Markup.ofJson?_toJson node,
        Markup.ofItems?_toJsons rest]
      rfl

theorem ListItem.ofItems?_toJsons : ∀ items : List ListItem,
    ListItem.ofItems? (ListItem.toJsons items) = some items
  | [] => rfl
  | ⟨number, children⟩ :: rest => by
      rw [ListItem.toJsons, ListItem.ofItems?,
        ListItem.ofJson?_fields number (Markup.ofItems?_toJsons children),
        ListItem.ofItems?_toJsons rest]
      rfl

end

/-- A list of nodes is written in the form of markup, and what has been written is read back. -/
theorem Markup.written_reads_back (nodes : List Markup) :
    Json.AreNodeForms (toJsons nodes) ∧ listOfJson? (.array (toJsons nodes)) = some nodes := by
  refine ⟨areNodeForms_toJsons nodes, ?_⟩
  rw [listOfJson?, Json.items?, Option.bind_some, ofItems?_toJsons]

end MessageBlocks
