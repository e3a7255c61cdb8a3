import MessageBlocks.Proofs.Json.Records
import MessageBlocks.Proofs.Settings.References

/-!
# References in values

Resolving a value replaces the references in each of its strings and changes nothing else.
It succeeds exactly if it does for every string by itself.
-/

namespace MessageBlocks

/-- Whether each live reference in a text names a variable with a value. -/
def Reference.Resolves (environment : Environment) (text : String) : Prop :=
  ∀ name, IsLive text.toList name → HasValue environment name

/-- The text with its references replaced. If one of them has no value it stays as it is. -/
def Reference.resolved (environment : Environment) (text : String) : String :=
  match replace environment text.toList with
  | .ok replaced => String.ofList replaced
  | .error _ => text

namespace Json

mutual

/-- The strings of a value with their paths, in their order. -/
def stringsAt (path : String) : Json → List (String × String)
  | .string text => [(path, text)]
  | .array items => itemStringsAt path 0 items
  | .object members => memberStringsAt path members
  | _ => []

def itemStringsAt (path : String) (index : Nat) : List Json → List (String × String)
  | [] => []
  | item :: rest =>
      stringsAt (itemPath path index) item ++ itemStringsAt path (index + 1) rest

def memberStringsAt (path : String) : List (String × Json) → List (String × String)
  | [] => []
  | (name, value) :: rest => stringsAt (memberPath path name) value ++ memberStringsAt path rest

end

/-- A law holds of all strings of the value at a path. -/
def AllStrings (path : String) (good : String → Prop) (value : Json) : Prop :=
  ∀ entry ∈ value.stringsAt path, good entry.2

mutual

/-- The value with all its strings changed, but not the names in it. -/
def mapStrings (change : String → String) : Json → Json
  | .string text => .string (change text)
  | .array items => .array (mapItems change items)
  | .object members => .object (mapMembers change members)
  | value => value

def mapItems (change : String → String) : List Json → List Json
  | [] => []
  | item :: rest => mapStrings change item :: mapItems change rest

def mapMembers (change : String → String) : List (String × Json) → List (String × Json)
  | [] => []
  | (name, value) :: rest => (name, mapStrings change value) :: mapMembers change rest

end

variable {environment : Environment}

theorem substituteString_eq_ok_iff {path text result : String} :
    substituteString environment path text = .ok result ↔
      Reference.Resolves environment text ∧ Reference.resolved environment text = result := by
  rw [Reference.Resolves, ← Reference.exists_replace_eq_ok_iff, substituteString,
    Reference.resolved]
  cases Reference.replace environment text.toList <;> simp

mutual

/-- Resolving succeeds exactly if every live reference in a string of the value has a value, and
then it replaces them all. -/
theorem substitute_eq_ok_iff (path : String) : ∀ value result : Json,
    substitute environment path value = .ok result ↔
      value.AllStrings path (Reference.Resolves environment) ∧
        value.mapStrings (Reference.resolved environment) = result
  | .string text, result => by
      rw [substitute, map_eq_ok_iff]
      simp [substituteString_eq_ok_iff, AllStrings, stringsAt, mapStrings, and_assoc]
  | .array items, result => by
      rw [substitute, map_eq_ok_iff]
      simp [substituteItems_eq_ok_iff path 0 items, AllStrings, stringsAt, mapStrings, and_assoc]
  | .object members, result => by
      rw [substitute, map_eq_ok_iff]
      simp [substituteMembers_eq_ok_iff path members, AllStrings, stringsAt, mapStrings, and_assoc]
  | .null, _ | .bool _, _ | .integer _, _ | .float _, _ | .unreadable, _ => by
      simp [substitute, AllStrings, stringsAt, mapStrings]

theorem substituteItems_eq_ok_iff (path : String) (index : Nat) : ∀ items results : List Json,
    substituteItems environment path index items = .ok results ↔
      (∀ entry ∈ itemStringsAt path index items, Reference.Resolves environment entry.2) ∧
        mapItems (Reference.resolved environment) items = results
  | [], results => by simp [substituteItems, itemStringsAt, mapItems]
  | item :: rest, results => by
      rw [substituteItems, bind_eq_ok_iff, itemStringsAt, mapItems, List.forall_mem_append]
      simp only [bind_eq_ok_iff, substitute_eq_ok_iff _ item, substituteItems_eq_ok_iff _ _ rest]
      simp [AllStrings, pure, Except.pure, and_assoc]

theorem substituteMembers_eq_ok_iff (path : String) : ∀ members results : List (String × Json),
    substituteMembers environment path members = .ok results ↔
      (∀ entry ∈ memberStringsAt path members, Reference.Resolves environment entry.2) ∧
        mapMembers (Reference.resolved environment) members = results
  | [], results => by simp [substituteMembers, memberStringsAt, mapMembers]
  | (name, value) :: rest, results => by
      rw [substituteMembers, bind_eq_ok_iff, memberStringsAt, mapMembers, List.forall_mem_append]
      simp only [bind_eq_ok_iff, substitute_eq_ok_iff _ value, substituteMembers_eq_ok_iff _ rest]
      simp [AllStrings, pure, Except.pure, and_assoc]

end

section Fields

variable {fields : List (String × Option Json)}

theorem mapMembers_eq_map (change : String → String) (members : List (String × Json)) :
    mapMembers change members = members.map (Prod.map id (mapStrings change)) := by
  induction members with
  | nil => rfl
  | cons member rest ih =>
      obtain ⟨name, value⟩ := member
      simp [mapMembers, ih]

theorem mapStrings_ofFields (change : String → String) (fields : List (String × Option Json)) :
    (ofFields fields).mapStrings change =
      ofFields (fields.map (Prod.map id (Option.map (mapStrings change)))) := by
  rw [ofFields_eq_object, mapStrings, mapMembers_eq_map, membersOf, Keyed.map_ofList,
    List.map_filterMap, ofFields_eq_object, membersOf, List.filterMap_map]
  simp [Function.comp_def]

theorem mem_memberStringsAt {path : String} {members : List (String × Json)}
    {entry : String × String} :
    entry ∈ memberStringsAt path members ↔
      ∃ member ∈ members, entry ∈ member.2.stringsAt (memberPath path member.1) := by
  induction members with
  | nil => simp [memberStringsAt]
  | cons member rest ih =>
      obtain ⟨name, value⟩ := member
      rw [memberStringsAt, List.mem_append, ih, List.exists_mem_cons_iff]

/-- A law holds of the strings of an object made of fields if it does of those of the fields. -/
theorem allStrings_ofFields (nodup : (fields.map Prod.fst).Nodup) {path : String}
    {good : String → Prop} :
    (ofFields fields).AllStrings path good ↔
      ∀ field ∈ fields, ∀ value ∈ field.2,
        value.AllStrings (memberPath path field.1) good := by
  simp only [AllStrings, ofFields_eq_object, stringsAt, mem_memberStringsAt]
  constructor
  · rintro allGood ⟨name, _⟩ member value rfl entry inValue
    exact allGood entry ⟨_, (mem_membersOf nodup).2 member, inValue⟩
  · rintro allGood entry ⟨⟨name, value⟩, member, inValue⟩
    exact allGood _ ((mem_membersOf nodup).1 member) value rfl entry inValue

end Fields

end Json

end MessageBlocks
