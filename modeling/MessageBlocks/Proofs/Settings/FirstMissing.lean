import MessageBlocks.Proofs.Json.Leaves
import MessageBlocks.Proofs.Settings.Occurrences
import MessageBlocks.Proofs.Settings.Resolution

/-!
# Resolving values by their occurrences

Resolving a value rewrites each of its strings by the occurrences of references in it, and
nothing else of the value changes. If a live reference lacks a value, the error names the
first one: in the first string by paths, and in this string the leftmost.
-/

namespace MessageBlocks.Json

open Reference

variable {environment : Environment}

/-- What is missing in the string at a path. -/
def missingIn? (environment : Environment) (entry : String × String) : Option MissingVariable :=
  match substituteString environment entry.1 entry.2 with
  | .ok _ => none
  | .error missing => some missing

theorem missingIn?_eq_none_iff {entry : String × String} :
    missingIn? environment entry = none ↔ Resolves environment entry.2 := by
  have succeeds : Resolves environment entry.2 ↔
      ∃ result, substituteString environment entry.1 entry.2 = .ok result := by
    simp [substituteString_eq_ok_iff]
  rw [succeeds, missingIn?]
  cases substituteString environment entry.1 entry.2 <;> simp

theorem missingIn?_eq_some_iff {entry : String × String} {missing : MissingVariable} :
    missingIn? environment entry = some missing ↔
      ∃ position name, missing = ⟨String.ofList name, entry.1⟩ ∧
        Reference.IsFirstMissing environment entry.2.toList position name := by
  have failed : missingIn? environment entry = some missing ↔
      ∃ name, replace environment entry.2.toList = .error name ∧ ⟨name, entry.1⟩ = missing := by
    rw [missingIn?, substituteString]
    cases replace environment entry.2.toList <;> simp
  rw [failed]
  constructor
  · rintro ⟨_, replaced, rfl⟩
    obtain ⟨position, name, rfl, first⟩ := (replace_eq_error_iff _).1 replaced
    exact ⟨position, name, rfl, first⟩
  · rintro ⟨position, name, rfl, first⟩
    exact ⟨_, (replace_eq_error_iff _).2 ⟨position, name, rfl, first⟩, rfl⟩

section Errors

theorem findSome?_missingIn_eq_none_iff {entries : List (String × String)} :
    entries.findSome? (missingIn? environment) = none ↔
      ∀ entry ∈ entries, Resolves environment entry.2 := by
  simp only [List.findSome?_eq_none_iff, missingIn?_eq_none_iff]

mutual

/-- Resolving fails with what is missing in the first string that cannot be resolved. -/
theorem substitute_eq_error_iff (path : String) : ∀ (value : Json) (missing : MissingVariable),
    substitute environment path value = .error missing ↔
      (value.stringsAt path).findSome? (missingIn? environment) = some missing
  | .string text, missing => by
      rw [substitute, map_eq_error_iff, stringsAt, List.findSome?_singleton, missingIn?]
      cases substituteString environment path text <;> simp
  | .array items, missing => by
      rw [substitute, map_eq_error_iff, stringsAt, substituteItems_eq_error_iff path 0 items]
  | .object members, missing => by
      rw [substitute, map_eq_error_iff, stringsAt, substituteMembers_eq_error_iff path members]
  | .null, _ | .bool _, _ | .integer _, _ | .float _, _ | .unreadable, _ => by
      simp [substitute, stringsAt]

theorem substituteItems_eq_error_iff (path : String) (index : Nat) :
    ∀ (items : List Json) (missing : MissingVariable),
    substituteItems environment path index items = .error missing ↔
      (itemStringsAt path index items).findSome? (missingIn? environment) = some missing
  | [], missing => by simp [substituteItems, itemStringsAt]
  | item :: rest, missing => by
      have restFails (result : Json) : (substituteItems environment path (index + 1) rest >>=
            fun items => pure (result :: items)) = .error missing ↔
          (itemStringsAt path (index + 1) rest).findSome? (missingIn? environment) =
            some missing := by
        rw [← substituteItems_eq_error_iff path (index + 1) rest, bind_eq_error_iff]
        simp [pure, Except.pure]
      rw [substituteItems, bind_eq_error_iff, itemStringsAt, List.findSome?_append,
        Option.or_eq_some_iff, findSome?_missingIn_eq_none_iff, substitute_eq_error_iff _ item]
      simp only [restFails, substitute_eq_ok_iff, exists_and_right]
      simp [AllStrings]

theorem substituteMembers_eq_error_iff (path : String) :
    ∀ (members : List (String × Json)) (missing : MissingVariable),
    substituteMembers environment path members = .error missing ↔
      (memberStringsAt path members).findSome? (missingIn? environment) = some missing
  | [], missing => by simp [substituteMembers, memberStringsAt]
  | (name, value) :: rest, missing => by
      have restFails (result : Json) : (substituteMembers environment path rest >>=
            fun members => pure ((name, result) :: members)) = .error missing ↔
          (memberStringsAt path rest).findSome? (missingIn? environment) = some missing := by
        rw [← substituteMembers_eq_error_iff path rest, bind_eq_error_iff]
        simp [pure, Except.pure]
      rw [substituteMembers, bind_eq_error_iff, memberStringsAt, List.findSome?_append,
        Option.or_eq_some_iff, findSome?_missingIn_eq_none_iff, substitute_eq_error_iff _ value]
      simp only [restFails, substitute_eq_ok_iff, exists_and_right]
      simp [AllStrings]

end

end Errors

section Paths

theorem extend_member (path name : String) :
    PathStep.extend path (.member name) = memberPath path name := by
  rw [PathStep.extend, memberPath]
  simp

theorem extend_item (path : String) (index : Nat) :
    PathStep.extend path (.item index) = itemPath path index :=
  rfl

mutual

/-- The paths at which the strings of a value are resolved are written out step by step. -/
theorem stringsAt_eq_map (path : String) : ∀ value : Json,
    value.stringsAt path =
      value.leaves.map (Prod.map (List.foldl PathStep.extend path) id)
  | .string _ => rfl
  | .array items => by rw [stringsAt, leaves, itemStringsAt_eq_map path 0 items]
  | .object members => by rw [stringsAt, leaves, memberStringsAt_eq_map path members]
  | .null | .bool _ | .integer _ | .float _ | .unreadable => rfl

theorem itemStringsAt_eq_map (path : String) (index : Nat) : ∀ items : List Json,
    itemStringsAt path index items =
      (itemLeaves index items).map (Prod.map (List.foldl PathStep.extend path) id)
  | [] => rfl
  | item :: rest => by
      rw [itemStringsAt, itemLeaves, stringsAt_eq_map _ item,
        itemStringsAt_eq_map path (index + 1) rest, ← extend_item]
      simp [Function.comp_def]

theorem memberStringsAt_eq_map (path : String) : ∀ members : List (String × Json),
    memberStringsAt path members =
      (memberLeaves members).map (Prod.map (List.foldl PathStep.extend path) id)
  | [] => rfl
  | (name, value) :: rest => by
      rw [memberStringsAt, memberLeaves, stringsAt_eq_map _ value,
        memberStringsAt_eq_map path rest, ← extend_member]
      simp [Function.comp_def]

end

end Paths

/-- The text with the references in it rewritten by their positions. -/
def rewriteText (environment : Environment) (text : String) : String :=
  String.ofList (rewrite environment text.toList)

/-- `value.HasLive steps position name`: the string at the end of the steps has a live
reference to the name at the position. -/
def HasLive (value : Json) (steps : List PathStep) (position : Nat) (name : List Char) : Prop :=
  ∃ text, (steps, text) ∈ value.leaves ∧ IsLiveAt text.toList position name

/-- The first live reference without a value, by paths and then by positions. -/
structure IsFirstMissing (environment : Environment) (value : Json) (steps : List PathStep)
    (position : Nat) (name : List Char) : Prop where
  live : value.HasLive steps position name
  missing : ¬ HasValue environment name
  earlier : ∀ otherSteps before other, value.HasLive otherSteps before other →
    Before otherSteps steps ∨ otherSteps = steps ∧ before < position →
    HasValue environment other

theorem resolves_iff {text : String} :
    Resolves environment text ↔
      ∀ position name, IsLiveAt text.toList position name → HasValue environment name := by
  simp only [Resolves, isLive_iff_exists, forall_exists_index]
  exact forall_comm

theorem allStrings_iff_hasLive (path : String) (value : Json) :
    value.AllStrings path (Resolves environment) ↔
      ∀ steps position name, value.HasLive steps position name → HasValue environment name := by
  simp only [AllStrings, stringsAt_eq_map, List.forall_mem_map, Prod.map_snd, id_eq, resolves_iff]
  constructor
  · rintro allResolve steps position name ⟨text, leaf, live⟩
    exact allResolve (steps, text) leaf position name live
  · rintro allHave ⟨steps, text⟩ leaf position name live
    exact allHave steps position name ⟨text, leaf, live⟩

theorem rewriteText_of_resolves {text : String} (resolves : Resolves environment text) :
    resolved environment text = rewriteText environment text := by
  rw [Resolves, ← exists_replace_eq_ok_iff] at resolves
  obtain ⟨replaced, same⟩ := resolves
  rw [resolved, same, rewriteText, rewrite_of_replace _ same]

section Congruence

variable {change other : String → String}

mutual

/-- A change of strings matters only for the strings of a value. -/
theorem mapStrings_congr (path : String) : ∀ value : Json,
    value.AllStrings path (fun text => change text = other text) →
      value.mapStrings change = value.mapStrings other
  | .string text, same => by
      rw [mapStrings, mapStrings, same (path, text) List.mem_cons_self]
  | .array items, same => by
      rw [mapStrings, mapStrings, mapItems_congr path 0 items same]
  | .object members, same => by
      rw [mapStrings, mapStrings, mapMembers_congr path members same]
  | .null, _ | .bool _, _ | .integer _, _ | .float _, _ | .unreadable, _ => by
      simp only [mapStrings]

theorem mapItems_congr (path : String) (index : Nat) : ∀ items : List Json,
    (∀ entry ∈ itemStringsAt path index items, change entry.2 = other entry.2) →
      mapItems change items = mapItems other items
  | [], _ => rfl
  | item :: rest, same => by
      rw [itemStringsAt, List.forall_mem_append] at same
      rw [mapItems, mapItems, mapStrings_congr _ item same.1,
        mapItems_congr path (index + 1) rest same.2]

theorem mapMembers_congr (path : String) : ∀ members : List (String × Json),
    (∀ entry ∈ memberStringsAt path members, change entry.2 = other entry.2) →
      mapMembers change members = mapMembers other members
  | [], _ => rfl
  | (name, value) :: rest, same => by
      rw [memberStringsAt, List.forall_mem_append] at same
      rw [mapMembers, mapMembers, mapStrings_congr _ value same.1,
        mapMembers_congr path rest same.2]

end

end Congruence

theorem substitute_eq_ok_iff_rewrite (path : String) (value result : Json) :
    substitute environment path value = .ok result ↔
      (∀ steps position name, value.HasLive steps position name → HasValue environment name) ∧
        value.mapStrings (rewriteText environment) = result := by
  rw [substitute_eq_ok_iff, ← allStrings_iff_hasLive path value]
  refine and_congr_right fun resolves => ?_
  rw [mapStrings_congr path value fun entry member =>
    rewriteText_of_resolves (resolves entry member)]

/-- In a value with sorted objects the first string in the list that cannot be resolved is the
first one by paths. -/
theorem substitute_eq_error_iff_isFirstMissing {value : Json} (ordered : value.IsOrdered)
    (missing : MissingVariable) :
    substitute environment "" value = .error missing ↔
      ∃ steps position name, value.IsFirstMissing environment steps position name ∧
        missing = ⟨String.ofList name, pathText steps⟩ := by
  have inOrder := pairwise_leaves value ordered
  rw [substitute_eq_error_iff, stringsAt_eq_map, List.findSome?_map, List.findSome?_eq_some_iff]
  simp only [Function.comp_apply, missingIn?_eq_some_iff, missingIn?_eq_none_iff, Prod.map_fst,
    Prod.map_snd, id_eq]
  constructor
  · rintro ⟨before, ⟨steps, text⟩, after, split, ⟨position, name, same, first⟩, resolve⟩
    rw [split, List.pairwise_append, List.pairwise_cons] at inOrder
    obtain ⟨-, ⟨following, -⟩, -⟩ := inOrder
    refine ⟨steps, position, name, ⟨⟨text, by simp [split], first.live⟩, first.missing, ?_⟩, same⟩
    rintro otherSteps otherPosition other ⟨otherText, leaf, live⟩ isBefore
    rw [split, List.mem_append, List.mem_cons] at leaf
    rcases leaf with inBefore | here | inAfter
    · exact resolves_iff.1 (resolve _ inBefore) otherPosition other live
    · obtain ⟨rfl, rfl⟩ := Prod.mk.inj here
      rcases isBefore with before | ⟨-, smaller⟩
      · exact absurd before before.asymm
      · exact first.earlier otherPosition smaller other live
    · have follows : Before steps otherSteps := following _ inAfter
      rcases isBefore with before | ⟨rfl, -⟩
      · exact absurd before follows.asymm
      · exact absurd follows follows.asymm
  · rintro ⟨steps, position, name, ⟨⟨text, leaf, live⟩, missingHere, earlier⟩, same⟩
    obtain ⟨before, after, split⟩ := List.append_of_mem leaf
    rw [split, List.pairwise_append] at inOrder
    obtain ⟨-, -, preceding⟩ := inOrder
    refine ⟨before, (steps, text), after, split, ⟨position, name, same, live, missingHere, ?_⟩, ?_⟩
    · intro otherPosition smaller other otherLive
      exact earlier steps otherPosition other ⟨text, leaf, otherLive⟩ (.inr ⟨rfl, smaller⟩)
    · rintro ⟨otherSteps, otherText⟩ inBefore
      rw [resolves_iff]
      intro otherPosition other otherLive
      have precedes : Before otherSteps steps := preceding _ inBefore _ List.mem_cons_self
      have otherLeaf : (otherSteps, otherText) ∈ value.leaves := by simp [split, inBefore]
      exact earlier otherSteps otherPosition other ⟨otherText, otherLeaf, otherLive⟩
        (.inl precedes)

/-- If every live reference in a value has a value, resolving rewrites the strings by the
positions of the references in them, and otherwise it names the first one that has none. -/
theorem resolve_by_occurrence (environment : Environment) (value : Json) :
    (∀ result, value.sorted.resolve environment = .ok result ↔
      (∀ steps position name, value.sorted.HasLive steps position name →
          HasValue environment name) ∧
        value.sorted.mapStrings (rewriteText environment) = result) ∧
      ∀ missing, value.sorted.resolve environment = .error missing ↔
        ∃ steps position name, value.sorted.IsFirstMissing environment steps position name ∧
          missing = ⟨String.ofList name, pathText steps⟩ :=
  ⟨fun _ => substitute_eq_ok_iff_rewrite "" _ _,
    fun missing => substitute_eq_error_iff_isFirstMissing (isOrdered_sorted value) missing⟩

/-- A value is put in as it is, also if a reference stands in it. -/
example : (Json.array [.string "<${A}>$${A}${B}", .bool true]).sorted.resolve
    [("A", "${B}"), ("B", "b")] = .ok (.array [.string "<${B}>${A}b", .bool true]) := by
  rfl

end MessageBlocks.Json
