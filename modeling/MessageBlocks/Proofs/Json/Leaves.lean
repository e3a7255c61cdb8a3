import MessageBlocks.Proofs.Json.Parts

/-!
# The strings of JSON values

A string stands in a value at the end of a path of member names and item indices. Of two
strings the one comes first whose path, where the two part, takes the lesser name or index.
In a value with sorted objects this is the order in which the value is read.
-/

namespace MessageBlocks.Json

/-- A step down a value: to the member of an object or to the item of an array. -/
inductive PathStep where
  | member (name : String)
  | item (index : Nat)
  deriving DecidableEq, Repr

/-- A path with one more step. A dot stands in front of a name unless the path is empty. -/
def PathStep.extend (path : String) : PathStep → String
  | member name => if path = "" then name else path ++ "." ++ name
  | item index => path ++ "[" ++ toString index ++ "]"

def pathText (steps : List PathStep) : String :=
  steps.foldl PathStep.extend ""

/-- `Before first second`: where two paths part, the first takes the lesser name or index. -/
inductive Before : List PathStep → List PathStep → Prop where
  | member {name other : String} {rest others : List PathStep} (less : name < other) :
      Before (.member name :: rest) (.member other :: others)
  | item {index other : Nat} {rest others : List PathStep} (less : index < other) :
      Before (.item index :: rest) (.item other :: others)
  | step {step : PathStep} {rest others : List PathStep} (below : Before rest others) :
      Before (step :: rest) (step :: others)

mutual

/-- The strings of a value with their paths, in their order. -/
def leaves : Json → List (List PathStep × String)
  | .string text => [([], text)]
  | .array items => itemLeaves 0 items
  | .object members => memberLeaves members
  | _ => []

def itemLeaves (index : Nat) : List Json → List (List PathStep × String)
  | [] => []
  | item :: rest =>
      (leaves item).map (Prod.map (.item index :: ·) id) ++ itemLeaves (index + 1) rest

def memberLeaves : List (String × Json) → List (List PathStep × String)
  | [] => []
  | (name, value) :: rest =>
      (leaves value).map (Prod.map (.member name :: ·) id) ++ memberLeaves rest

end

mutual

/-- Whether all objects in a value are sorted by name. -/
def IsOrdered : Json → Prop
  | .array items => AreOrdered items
  | .object members => Keyed.Sorted members ∧ HaveOrdered members
  | _ => True

def AreOrdered : List Json → Prop
  | [] => True
  | item :: rest => IsOrdered item ∧ AreOrdered rest

def HaveOrdered : List (String × Json) → Prop
  | [] => True
  | (_, value) :: rest => IsOrdered value ∧ HaveOrdered rest

end

theorem Before.asymm {first second : List PathStep} (before : Before first second) :
    ¬ Before second first := by
  induction before with
  | member less =>
      rintro (greater | _ | below)
      · exact absurd (String.lt_trans less greater) (String.lt_irrefl _)
      · exact absurd less (String.lt_irrefl _)
  | item less =>
      rintro (_ | greater | below)
      · omega
      · omega
  | step below ih =>
      rintro (less | less | above)
      · exact absurd less (String.lt_irrefl _)
      · omega
      · exact ih above

theorem haveOrdered_iff {members : List (String × Json)} :
    HaveOrdered members ↔ ∀ member ∈ members, member.2.IsOrdered := by
  induction members with
  | nil => simp [HaveOrdered]
  | cons member rest ih =>
      obtain ⟨name, value⟩ := member
      simp [HaveOrdered, ih]

mutual

theorem isOrdered_sorted : ∀ value : Json, value.sorted.IsOrdered
  | .array items => by
      rw [sorted, IsOrdered]
      exact areOrdered_sortedItems items
  | .object members => by
      rw [sorted, ofMembers, IsOrdered, haveOrdered_iff]
      refine ⟨Keyed.sorted_ofList _, fun member among => ?_⟩
      have ordered := haveOrdered_iff.1 (haveOrdered_sortedMembers members)
      exact ordered member (Keyed.mem_of_mem_ofList among)
  | .null | .bool _ | .integer _ | .float _ | .string _ | .unreadable => by simp [sorted, IsOrdered]

theorem areOrdered_sortedItems : ∀ items : List Json, AreOrdered (sortedItems items)
  | [] => trivial
  | item :: rest => ⟨isOrdered_sorted item, areOrdered_sortedItems rest⟩

theorem haveOrdered_sortedMembers :
    ∀ members : List (String × Json), HaveOrdered (sortedMembers members)
  | [] => trivial
  | (_, value) :: rest => ⟨isOrdered_sorted value, haveOrdered_sortedMembers rest⟩

end

/-- The strings of the items from an index on have this index or a greater one first in their
paths. -/
theorem exists_item_of_mem {items : List Json} {index : Nat} {leaf : List PathStep × String}
    (member : leaf ∈ itemLeaves index items) :
    ∃ own rest, leaf.1 = .item own :: rest ∧ index ≤ own := by
  induction items generalizing index with
  | nil => cases member
  | cons item others ih =>
      rw [itemLeaves, List.mem_append] at member
      rcases member with inItem | inOthers
      · obtain ⟨inner, -, rfl⟩ := List.mem_map.1 inItem
        exact ⟨index, inner.1, rfl, Nat.le_refl _⟩
      · obtain ⟨own, rest, same, above⟩ := ih inOthers
        exact ⟨own, rest, same, by omega⟩

theorem exists_member_of_mem {members : List (String × Json)} {leaf : List PathStep × String}
    (member : leaf ∈ memberLeaves members) :
    ∃ entry ∈ members, ∃ rest, leaf.1 = .member entry.1 :: rest := by
  induction members with
  | nil => cases member
  | cons entry others ih =>
      obtain ⟨name, value⟩ := entry
      rw [memberLeaves, List.mem_append] at member
      rcases member with inValue | inOthers
      · obtain ⟨inner, -, rfl⟩ := List.mem_map.1 inValue
        exact ⟨_, List.mem_cons_self, inner.1, rfl⟩
      · obtain ⟨entry, entryMember, rest, same⟩ := ih inOthers
        exact ⟨entry, List.mem_cons_of_mem _ entryMember, rest, same⟩

theorem pairwise_map_step {entries : List (List PathStep × String)} (step : PathStep)
    (pairwise : entries.Pairwise fun first second => Before first.1 second.1) :
    (entries.map (Prod.map (step :: ·) id)).Pairwise
      fun first second => Before first.1 second.1 :=
  List.pairwise_map.2 (pairwise.imp fun before => .step before)

mutual

/-- The strings of a value with sorted objects are listed in the order of their paths. -/
theorem pairwise_leaves : ∀ value : Json, value.IsOrdered →
    value.leaves.Pairwise fun first second => Before first.1 second.1
  | .string _, _ => List.pairwise_singleton _ _
  | .array items, ordered => pairwise_itemLeaves 0 items ordered
  | .object members, ⟨sorted, ordered⟩ => pairwise_memberLeaves members sorted ordered
  | .null, _ | .bool _, _ | .integer _, _ | .float _, _ | .unreadable, _ => List.Pairwise.nil

theorem pairwise_itemLeaves (index : Nat) : ∀ items : List Json, AreOrdered items →
    (itemLeaves index items).Pairwise fun first second => Before first.1 second.1
  | [], _ => List.Pairwise.nil
  | item :: rest, ⟨ordered, restOrdered⟩ => by
      rw [itemLeaves, List.pairwise_append]
      refine ⟨pairwise_map_step _ (pairwise_leaves item ordered),
        pairwise_itemLeaves (index + 1) rest restOrdered, ?_⟩
      intro first inItem second inRest
      obtain ⟨inner, -, rfl⟩ := List.mem_map.1 inItem
      obtain ⟨own, further, same, above⟩ := exists_item_of_mem inRest
      rw [same]
      exact .item (by omega)

theorem pairwise_memberLeaves : ∀ members : List (String × Json), Keyed.Sorted members →
    HaveOrdered members →
    (memberLeaves members).Pairwise fun first second => Before first.1 second.1
  | [], _, _ => List.Pairwise.nil
  | (name, value) :: rest, sorted, ⟨ordered, restOrdered⟩ => by
      obtain ⟨below, restSorted⟩ := List.pairwise_cons.1 sorted
      rw [memberLeaves, List.pairwise_append]
      refine ⟨pairwise_map_step _ (pairwise_leaves value ordered),
        pairwise_memberLeaves rest restSorted restOrdered, ?_⟩
      intro first inValue second inRest
      obtain ⟨inner, -, rfl⟩ := List.mem_map.1 inValue
      obtain ⟨entry, entryMember, further, same⟩ := exists_member_of_mem inRest
      rw [same]
      exact .member (below entry entryMember)

end

end MessageBlocks.Json
