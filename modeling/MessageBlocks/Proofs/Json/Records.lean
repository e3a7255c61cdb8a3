import MessageBlocks.Proofs.Json.Parts

/-!
# Records in JSON

An object made of fields with different names has these fields and no others, so it
reads back as the record of their values. A change of the strings of a value goes through
to the fields of an object.
-/

namespace MessageBlocks

namespace Keyed

variable {κ α β : Type} [LT κ] [DecidableLT κ] [DecidableEq κ]

theorem map_insert (change : α → β) (key : κ) (value : α) (entries : List (κ × α)) :
    (insert key value entries).map (Prod.map id change) =
      insert key (change value) (entries.map (Prod.map id change)) := by
  induction entries with
  | nil => rfl
  | cons entry rest ih =>
      simp only [insert, List.map_cons, Prod.map_fst, id_eq]
      split
      · rfl
      · split
        · rfl
        · rw [List.map_cons, ih]

/-- Values may be changed before or after sorting by key. -/
theorem map_ofList (change : α → β) (entries : List (κ × α)) :
    (ofList entries).map (Prod.map id change) = ofList (entries.map (Prod.map id change)) := by
  suffices ∀ sorted : List (κ × α),
      (entries.foldl (fun sorted entry => insert entry.1 entry.2 sorted) sorted).map
          (Prod.map id change) =
        (entries.map (Prod.map id change)).foldl
          (fun sorted entry => insert entry.1 entry.2 sorted) (sorted.map (Prod.map id change)) from
    this []
  induction entries with
  | nil => exact fun _ => rfl
  | cons entry rest ih =>
      intro sorted
      rw [List.foldl_cons, ih, map_insert]
      rfl

end Keyed

namespace Json

variable {fields : List (String × Option Json)}

theorem field?_of_mem (nodup : (fields.map Prod.fst).Nodup) {field : String × Option Json}
    (member : field ∈ fields) : field? field.1 fields = field.2 := by
  induction fields with
  | nil => cases member
  | cons first rest ih =>
      obtain ⟨apart, restNodup⟩ := List.nodup_cons.1 nodup
      rw [field?]
      rcases List.mem_cons.1 member with rfl | inRest
      · have absent : field? field.1 rest = none :=
          field?_eq_none fun other otherMember same =>
            apart (same ▸ List.mem_map_of_mem otherMember)
        simp [absent]
      · have different : field.1 ≠ first.1 := fun same =>
          apart (same ▸ List.mem_map_of_mem inRest)
        simp [different, ih restNodup inRest]

/-- The members of the object that is made of the fields. -/
def membersOf (fields : List (String × Option Json)) : List (String × Json) :=
  Keyed.ofList (fields.filterMap fun field => field.2.map (field.1, ·))

theorem ofFields_eq_object (fields : List (String × Option Json)) :
    ofFields fields = .object (membersOf fields) :=
  rfl

theorem find?_membersOf (nodup : (fields.map Prod.fst).Nodup) {field : String × Option Json}
    (member : field ∈ fields) : Keyed.find? field.1 (membersOf fields) = field.2 := by
  rw [← field?_of_mem nodup member]
  exact member?_ofFields field.1 fields

/-- Fields with different names are all among the members if they are present. -/
theorem mem_membersOf (nodup : (fields.map Prod.fst).Nodup) {name : String} {value : Json} :
    (name, value) ∈ membersOf fields ↔ (name, some value) ∈ fields := by
  constructor
  · intro member
    obtain ⟨⟨key, content⟩, fieldMember, equal⟩ :=
      List.mem_filterMap.1 (Keyed.mem_of_mem_ofList member)
    cases content with
    | none => cases equal
    | some content =>
        cases equal
        exact fieldMember
  · intro member
    exact Keyed.mem_of_find?_eq_some (find?_membersOf nodup member)

theorem nodup_membersOf (fields : List (String × Option Json)) :
    ((membersOf fields).map Prod.fst).Nodup :=
  List.pairwise_map.2 ((Keyed.sorted_ofList _).imp fun below => Std.ne_of_lt below)

/-- A record reads back from the object of its fields. -/
theorem record?_ofFields (fields : List (String × Option Json))
    (nodup : (fields.map Prod.fst).Nodup) :
    (ofFields fields).record? (fields.map Prod.fst) = some (fields.map Prod.snd) := by
  have allWritten : (membersOf fields).filter
      (fun member => (fields.map Prod.fst).contains member.1) = membersOf fields := by
    rw [List.filter_eq_self]
    rintro ⟨name, value⟩ member
    simpa using ⟨_, (mem_membersOf nodup).1 member⟩
  have values : (fields.map Prod.fst).map (fun name => Keyed.find? name (membersOf fields)) =
      fields.map Prod.snd := by
    rw [List.map_map, List.map_congr_left]
    exact fun field member => find?_membersOf nodup member
  rw [ofFields_eq_object, record?]
  simp only [allWritten, nodup_membersOf, if_true, values]

end Json

end MessageBlocks
