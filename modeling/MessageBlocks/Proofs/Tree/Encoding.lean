import MessageBlocks.Proofs.Tree.Descent
import MessageBlocks.Tree.Encoding

/-!
# Trees read back from JSON

The JSON form of a tree is read back to the tree. The kinds of scalars are not confused, and the
fields that are left out when they are empty are empty again. The one thing that JSON cannot hold
is a number that is not finite: it is written as null and comes back as null. So a tree is the same
afterwards exactly if all numbers in its attributes are finite.
-/

namespace MessageBlocks

namespace Keyed

variable {κ α : Type} [LT κ] [DecidableLT κ] [DecidableEq κ] [LE κ] [Std.IsLinearOrder κ]
  [Std.LawfulOrderLT κ]

/-- An entry whose key is above all others is put at the end. -/
theorem insert_of_above {key : κ} (value : α) {entries : List (κ × α)}
    (above : ∀ entry ∈ entries, entry.1 < key) :
    insert key value entries = entries ++ [(key, value)] := by
  induction entries with
  | nil => rfl
  | cons head rest ih =>
      have headBelow : head.1 < key := above head List.mem_cons_self
      rw [insert, if_neg (Std.not_lt.2 (Std.le_of_lt headBelow)),
        if_neg (Ne.symm (Std.ne_of_lt headBelow)),
        ih fun entry member => above entry (List.mem_cons_of_mem _ member), List.cons_append]

/-- Sorted entries are not changed by sorting them. -/
theorem ofList_of_sorted {entries : List (κ × α)} (sorted : Sorted entries) :
    ofList entries = entries := by
  suffices ∀ done : List (κ × α), Sorted (done ++ entries) →
      entries.foldl (fun sorted entry => insert entry.1 entry.2 sorted) done = done ++ entries from
    this [] sorted
  clear sorted
  induction entries with
  | nil => exact fun done _ => (List.append_nil done).symm
  | cons entry rest ih =>
      intro done sorted
      have above : ∀ earlier ∈ done, earlier.1 < entry.1 := fun earlier member =>
        (List.pairwise_append.1 sorted).2.2 earlier member entry List.mem_cons_self
      rw [List.append_cons] at sorted ⊢
      rw [List.foldl_cons, insert_of_above entry.2 above, ih _ sorted]

end Keyed

/-! What JSON can hold of a tree: all of it, but null for a number that is not finite. -/

namespace AttributeValue

def finite : AttributeValue → AttributeValue
  | .number value => if value.isFinite then .number value else .null
  | value => value

theorem ofJson?_toJson (value : AttributeValue) : ofJson? value.toJson = some value.finite := by
  cases value with
  | number value =>
      rw [toJson, finite]
      split <;> rfl
  | null | bool | string => rfl

theorem isReadable_toJson (value : AttributeValue) : value.toJson.isReadable = true := by
  cases value with
  | number value =>
      rw [toJson]
      split <;> rfl
  | null | bool | string => rfl

theorem finite_eq_self_iff {value : AttributeValue} :
    value.finite = value ↔ ∀ number, value = .number number → number.isFinite = true := by
  cases value with
  | number value => cases isFinite : value.isFinite <;> simp [finite, isFinite]
  | null | bool | string => simp [finite]

end AttributeValue

namespace Attributes

def finite (attributes : Attributes) : Attributes where
  entries := attributes.entries.map fun entry => (entry.1, entry.2.finite)
  sorted := by
    rw [Keyed.Sorted, List.pairwise_map]
    exact attributes.sorted

/-- Attributes have different names in order, so that none of them is lost and none is moved. -/
theorem ofJson?_toJson (attributes : Attributes) :
    ofJson? attributes.toJson = some attributes.finite := by
  have members (entries : List (String × AttributeValue)) :
      (entries.map fun entry => (entry.1, entry.2.toJson)).mapM
          (fun member => (AttributeValue.ofJson? member.2).map (member.1, ·)) =
        some (entries.map fun entry => (entry.1, entry.2.finite)) := by
    induction entries with
    | nil => rfl
    | cons entry rest ih => simp [ih, AttributeValue.ofJson?_toJson]
  have sorted : ofList attributes.finite.entries = attributes.finite := by
    simp only [ofList, Keyed.ofList_of_sorted attributes.finite.sorted]
  rw [toJson, ofJson?, members, Option.map_some, ← sorted]
  rfl

theorem isReadable_toJson (attributes : Attributes) : attributes.toJson.isReadable = true := by
  rw [toJson, Json.isReadable]
  induction attributes.entries with
  | nil => rfl
  | cons entry rest ih =>
      rw [List.map_cons, Json.haveReadable, AttributeValue.isReadable_toJson, ih]
      rfl

theorem finite_eq_self_iff {attributes : Attributes} :
    attributes.finite = attributes ↔
      ∀ name number, (name, .number number) ∈ attributes.entries → number.isFinite = true := by
  obtain ⟨entries, sorted⟩ := attributes
  have values : entries.map (fun entry => (entry.1, entry.2.finite)) = entries ↔
      ∀ entry ∈ entries, entry.2.finite = entry.2 := by
    have pointwise := List.map_inj_left (l := entries) (g := id)
      (f := fun entry => (entry.1, entry.2.finite))
    rw [List.map_id] at pointwise
    simpa [Prod.ext_iff] using pointwise
  simp only [finite, mk.injEq, values, AttributeValue.finite_eq_self_iff]
  constructor
  · intro all name number member
    exact all _ member number rfl
  · rintro all ⟨name, value⟩ member number rfl
    exact all name number member

end Attributes

mutual

def Node.finite : Node → Node
  | .text content => .text content
  | .element element => .element (Element.finite element)

/-- The tree with null for each number that is not finite. -/
def Element.finite : Element → Element
  | ⟨kind, attributes, children⟩ => ⟨kind, attributes.finite, Node.allFinite children⟩

def Node.allFinite : List Node → List Node
  | [] => []
  | node :: rest => Node.finite node :: Node.allFinite rest

end

namespace Element

/-- The members of the JSON form of an element. -/
def members (element : Element) : List (String × Json) :=
  (if element.attributes.entries.isEmpty then [] else [("attrs", element.attributes.toJson)]) ++
    (if element.children.isEmpty then []
      else [("children", .array (Node.toJsons element.children))]) ++
      [("type", .string element.kind)]

theorem toJson_eq_object (element : Element) : element.toJson = .object element.members := by
  obtain ⟨kind, attributes, children⟩ := element
  rfl

/-- The fields of an element, of which those that are empty have not been written. -/
theorem record?_members (element : Element) :
    (Json.object element.members).record? fieldNames =
      some [some (.string element.kind),
        if element.attributes.entries.isEmpty then none else some element.attributes.toJson,
        if element.children.isEmpty then none
          else some (.array (Node.toJsons element.children))] := by
  rw [members]
  cases element.attributes.entries.isEmpty <;> cases element.children.isEmpty <;>
    simp [Json.record?, fieldNames, Keyed.find?]

/-- Only the member of that name holds the children. -/
theorem ofMembers?_members (element : Element) :
    Node.ofMembers? element.members = Node.ofItems? (Node.toJsons element.children) := by
  rw [members, Attributes.toJson]
  cases element.children with
  | nil =>
      cases element.attributes.entries.isEmpty <;>
        simp [Node.ofMembers?, Node.toJsons, Node.ofItems?]
  | cons node rest =>
      cases element.attributes.entries.isEmpty <;> simp [Node.ofMembers?]

end Element

mutual

theorem Node.isReadable_toJson : ∀ node : Node, node.toJson.isReadable = true
  | .text _ => rfl
  | .element ⟨kind, attributes, children⟩ => by
      rw [Node.toJson, Element.toJson, Json.isReadable]
      cases attributes.entries.isEmpty <;> cases children.isEmpty <;>
        simp [Json.haveReadable, Json.isReadable, attributes.isReadable_toJson,
          areReadable_toJsons children]

theorem Node.areReadable_toJsons : ∀ nodes : List Node,
    Json.areReadable (toJsons nodes) = true
  | [] => rfl
  | node :: rest => by
      rw [toJsons, Json.areReadable, isReadable_toJson node, areReadable_toJsons rest]
      rfl

end

mutual

/-- A node comes back from its JSON form, by recursion over the tree: text is no object, and each
child of an element comes back from the item that it has become. -/
theorem Node.ofJson?_toJson : ∀ node : Node, ofJson? node.toJson = some node.finite
  | .text _ => rfl
  | .element ⟨kind, attributes, children⟩ => by
      have below := ofItems?_toJsons children
      have withoutAttributes (isEmpty : attributes.entries.isEmpty = true) :
          attributes.finite = ∅ := by
        obtain ⟨entries, sorted⟩ := attributes
        obtain rfl := List.isEmpty_iff.1 isEmpty
        rfl
      rw [Node.toJson, Element.toJson_eq_object, ofJson?, Element.record?_members,
        Element.ofMembers?_members, below, Node.finite, Element.finite]
      cases isEmpty : attributes.entries.isEmpty with
      | true => simp [Element.ofFields?, withoutAttributes isEmpty]
      | false => simp [Element.ofFields?, attributes.ofJson?_toJson]

theorem Node.ofItems?_toJsons : ∀ nodes : List Node,
    ofItems? (toJsons nodes) = some (allFinite nodes)
  | [] => rfl
  | node :: rest => by
      rw [toJsons, ofItems?, allFinite, isReadable_toJson node, ofJson?_toJson node,
        ofItems?_toJsons rest]
      rfl

end

theorem Node.allFinite_eq_self_iff {nodes : List Node} :
    allFinite nodes = nodes ↔ ∀ child, .element child ∈ nodes → child.finite = child := by
  induction nodes with
  | nil => simp [allFinite]
  | cons node rest ih =>
      cases node with
      | text content => simp [allFinite, Node.finite, ih]
      | element child => simp [allFinite, Node.finite, ih]

namespace Element

/-- Whether all numbers in the attributes of a tree are finite, at any depth. -/
def HasFiniteNumbers (root : Element) : Prop :=
  ∀ element, root.Within element → ∀ name number,
    (name, .number number) ∈ element.attributes.entries → number.isFinite = true

theorem finite_eq_self_iff (root : Element) : root.finite = root ↔ root.HasFiniteNumbers := by
  induction root using Element.induction with
  | step element ih =>
      have parts : element.finite = element ↔
          element.attributes.finite = element.attributes ∧
            ∀ child, .element child ∈ element.children → child.finite = child := by
        obtain ⟨kind, attributes, children⟩ := element
        simp [finite, Node.allFinite_eq_self_iff]
      rw [parts, Attributes.finite_eq_self_iff]
      constructor
      · rintro ⟨here, below⟩ inner inside
        rcases within_iff.1 inside with rfl | ⟨child, member, deeper⟩
        · exact here
        · exact (ih child member).1 (below child member) inner deeper
      · intro all
        refine ⟨all element .root, fun child member => (ih child member).2 fun inner inside => ?_⟩
        exact all inner ((Within.root.child member).trans inside)

/-- Every tree is read back from its JSON form, with null for the numbers that JSON cannot hold. -/
theorem ofJson?_toJson (element : Element) : ofJson? element.toJson = some element.finite := by
  have node := Node.ofJson?_toJson (.element element)
  rw [Node.toJson] at node
  rw [ofJson?, node]
  rfl

/-- An element is the same after it has been written as JSON and read again, whatever its strings
are and however deep it goes, exactly if all numbers in its attributes are finite. -/
theorem ofJson?_toJson_eq_self_iff (element : Element) :
    ofJson? element.toJson = some element ↔ element.HasFiniteNumbers := by
  rw [ofJson?_toJson, Option.some_inj, finite_eq_self_iff]

end Element

end MessageBlocks
