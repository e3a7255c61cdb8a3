import MessageBlocks.Json.Basic

/-!
# Parts of JSON values

A part of a value is the value itself or stands in it at any depth. An object
that is made of fields has as members exactly the fields that are present, where
the last field of a name counts. So a law that is to hold of every part of such
an object has to be shown of the object and of every part of its fields.
-/

namespace MessageBlocks

namespace Keyed

variable {κ α : Type} [DecidableEq κ]

def last? (key : κ) : List (κ × α) → Option α
  | [] => none
  | entry :: rest => (last? key rest).or (if key = entry.1 then some entry.2 else none)

variable [LT κ] [DecidableLT κ]

theorem find?_foldl_insert (key : κ) (entries sorted : List (κ × α)) :
    find? key (entries.foldl (fun sorted entry => insert entry.1 entry.2 sorted) sorted) =
      (last? key entries).or (find? key sorted) := by
  induction entries generalizing sorted with
  | nil => rfl
  | cons entry rest ih =>
      rw [List.foldl_cons, ih, find?_insert, last?]
      by_cases same : key = entry.1
      · simp [same]
      · simp [same]

/-- Of the entries with one key, sorting keeps the last. -/
theorem find?_ofList (key : κ) (entries : List (κ × α)) :
    find? key (ofList entries) = last? key entries := by
  rw [ofList, find?_foldl_insert]
  simp [find?]

theorem mem_of_mem_ofList {entry : κ × α} {entries : List (κ × α)}
    (member : entry ∈ ofList entries) : entry ∈ entries := by
  suffices ∀ sorted : List (κ × α),
      entry ∈ entries.foldl (fun sorted entry => insert entry.1 entry.2 sorted) sorted →
        entry ∈ entries ∨ entry ∈ sorted by
    simpa using this [] member
  clear member
  induction entries with
  | nil =>
      intro sorted member
      exact .inr member
  | cons first rest ih =>
      intro sorted member
      rcases ih _ member with inRest | inSorted
      · exact .inl (List.mem_cons_of_mem _ inRest)
      · rcases mem_insert inSorted with rfl | before
        · exact .inl List.mem_cons_self
        · exact .inr before

end Keyed

namespace Json

/-- The value of a field, which is absent or the last one given for its name. -/
def field? (name : String) : List (String × Option Json) → Option Json
  | [] => none
  | field :: rest => (field? name rest).or (if name = field.1 then field.2 else none)

theorem field?_append (name : String) (first second : List (String × Option Json)) :
    field? name (first ++ second) = (field? name second).or (field? name first) := by
  induction first with
  | nil => simp [field?]
  | cons field rest ih => simp [field?, ih, Option.or_assoc]

theorem mem_of_field?_eq_some {name : String} {fields : List (String × Option Json)}
    {value : Json} (found : field? name fields = some value) : (name, some value) ∈ fields := by
  induction fields with
  | nil => cases found
  | cons field rest ih =>
      rw [field?, Option.or_eq_some_iff] at found
      rcases found with inRest | ⟨-, here⟩
      · exact List.mem_cons_of_mem _ (ih inRest)
      · split at here
        · next same =>
            obtain ⟨key, content⟩ := field
            obtain rfl : name = key := same
            obtain rfl : content = some value := here
            exact List.mem_cons_self
        · cases here

theorem field?_eq_none {name : String} {fields : List (String × Option Json)}
    (absent : ∀ field ∈ fields, field.1 ≠ name) : field? name fields = none := by
  cases found : field? name fields with
  | none => rfl
  | some value => exact absurd rfl (absent _ (mem_of_field?_eq_some found))

/-- The members of an object made of fields are the fields that are present. -/
theorem member?_ofFields (name : String) (fields : List (String × Option Json)) :
    (ofFields fields).member? name = field? name fields := by
  rw [ofFields, ofMembers, member?, Keyed.find?_ofList]
  induction fields with
  | nil => rfl
  | cons field rest ih =>
      obtain ⟨key, content⟩ := field
      cases content with
      | none => simp [field?, ih]
      | some value => simp [field?, Keyed.last?, ih]

/-- `value.Part part`: the part stands in the value, at any depth. -/
inductive Part (value : Json) : Json → Prop where
  | self : Part value value
  | item {items : List Json} {part : Json} (inside : Part value (.array items))
      (member : part ∈ items) : Part value part
  | member {members : List (String × Json)} {name : String} {part : Json}
      (inside : Part value (.object members)) (member : (name, part) ∈ members) :
      Part value part

/-- A law holds of a value and of all its parts. -/
def Everywhere (law : Json → Prop) (value : Json) : Prop :=
  ∀ part, value.Part part → law part

/-- A law holds everywhere in the value of a field, if the field is present. -/
def FieldEverywhere (law : Json → Prop) (field : Option Json) : Prop :=
  ∀ value, field = some value → value.Everywhere law

/-- A value without parts of its own. -/
def isLeaf : Json → Bool
  | array _ | object _ => false
  | _ => true

variable {law : Json → Prop}

theorem Part.eq_of_isLeaf {value part : Json} (leaf : value.isLeaf = true)
    (inside : value.Part part) : part = value := by
  induction inside with
  | self => rfl
  | item _ _ ih =>
      rw [← ih] at leaf
      cases leaf
  | member _ _ ih =>
      rw [← ih] at leaf
      cases leaf

@[simp]
theorem fieldEverywhere_none : FieldEverywhere law none :=
  nofun

@[simp]
theorem fieldEverywhere_some {value : Json} :
    FieldEverywhere law (some value) ↔ value.Everywhere law := by
  simp [FieldEverywhere]

@[simp]
theorem fieldEverywhere_map {α : Type} {encode : α → Json} {content : Option α} :
    FieldEverywhere law (content.map encode) ↔
      ∀ value, content = some value → (encode value).Everywhere law := by
  cases content <;> simp

theorem Part.array {items : List Json} {part : Json} (inside : (array items).Part part) :
    part = .array items ∨ ∃ item ∈ items, item.Part part := by
  induction inside with
  | self => exact .inl rfl
  | item _ member ih =>
      rcases ih with same | ⟨top, topMember, topInside⟩
      · cases same
        exact .inr ⟨_, member, .self⟩
      · exact .inr ⟨top, topMember, topInside.item member⟩
  | member _ member ih =>
      rcases ih with same | ⟨top, topMember, topInside⟩
      · cases same
      · exact .inr ⟨top, topMember, topInside.member member⟩

/-- A part of an object is the object or a part of a member. -/
theorem Part.object {members : List (String × Json)} {part : Json}
    (inside : (object members).Part part) :
    part = .object members ∨ ∃ entry ∈ members, entry.2.Part part := by
  induction inside with
  | self => exact .inl rfl
  | item _ member ih =>
      rcases ih with same | ⟨top, topMember, topInside⟩
      · cases same
      · exact .inr ⟨top, topMember, topInside.item member⟩
  | member _ member ih =>
      rcases ih with same | ⟨top, topMember, topInside⟩
      · cases same
        exact .inr ⟨_, member, .self⟩
      · exact .inr ⟨top, topMember, topInside.member member⟩

theorem everywhere_leaf {value : Json} (leaf : value.isLeaf = true) (here : law value) :
    value.Everywhere law := by
  intro part inside
  rw [inside.eq_of_isLeaf leaf]
  exact here

theorem everywhere_array {items : List Json} (here : law (array items))
    (below : ∀ item ∈ items, item.Everywhere law) : (array items).Everywhere law := by
  intro part inside
  rcases inside.array with rfl | ⟨item, member, itemInside⟩
  · exact here
  · exact below item member part itemInside

/-- A law holds everywhere in an object if it holds of the object and everywhere in the
fields of which it is made. -/
theorem everywhere_ofFields {fields : List (String × Option Json)}
    (here : law (ofFields fields))
    (below : ∀ field ∈ fields, FieldEverywhere law field.2) :
    (ofFields fields).Everywhere law := by
  intro part inside
  rcases inside.object with rfl | ⟨⟨name, value⟩, member, valueInside⟩
  · exact here
  · obtain ⟨⟨key, content⟩, fieldMember, equal⟩ :=
      List.mem_filterMap.1 (Keyed.mem_of_mem_ofList member)
    cases content with
    | none => cases equal
    | some content =>
        cases equal
        exact below _ fieldMember value rfl part valueInside

end Json

end MessageBlocks
