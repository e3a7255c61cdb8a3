import MessageBlocks.Grammar.Rule
import Mathlib.Data.List.Nodup
import Mathlib.Data.List.Pairwise

/-!
# Names of the grammar

No two tags share a name and no rule declares an attribute twice. So finding the
tag of a name, asking whether a rule allows a child and looking up an attribute
are questions of membership in the tables of the grammar.
-/

namespace MessageBlocks

namespace Tag

theorem mem_all (tag : Tag) : tag ∈ all := by
  cases tag <;> decide

theorem nodup_names : (all.flatMap names).Nodup := by
  decide +kernel

/-- A name belongs to one tag only. -/
theorem eq_of_mem_names {first second : Tag} {name : String} (inFirst : name ∈ first.names)
    (inSecond : name ∈ second.names) : first = second := by
  by_contra different
  have apart := (List.nodup_flatMap.1 nodup_names).2
  have symmetric : Std.Symm (Function.onFun List.Disjoint names) :=
    ⟨fun _ _ disjoint _ inSecond inFirst => disjoint inFirst inSecond⟩
  exact apart.forall (mem_all first) (mem_all second) different inFirst inSecond

theorem ofName?_eq_some_iff {name : String} {tag : Tag} :
    ofName? name = some tag ↔ name ∈ tag.names := by
  constructor
  · intro found
    simpa using List.find?_some found
  · intro member
    cases found : ofName? name with
    | none => exact absurd (List.find?_eq_none.1 found tag (mem_all tag)) (by simpa using member)
    | some other =>
        have otherMember : name ∈ other.names := by simpa using List.find?_some found
        rw [eq_of_mem_names otherMember member]

end Tag

namespace Rule

theorem mem_childNames {rule : Rule} {name : String} :
    name ∈ rule.childNames ↔ ∃ tag ∈ rule.children, name ∈ tag.names := by
  simp [childNames]

/-- A rule allows exactly the children whose names it lists. -/
theorem allowsChild_iff {rule : Rule} {name : String} :
    rule.allowsChild name = true ↔ name ∈ rule.childNames := by
  rw [mem_childNames, allowsChild]
  cases found : Tag.ofName? name with
  | none =>
      have unnamed : ∀ tag ∈ rule.children, name ∉ tag.names := fun tag _ member => by
        rw [Tag.ofName?_eq_some_iff.2 member] at found
        cases found
      simpa using unnamed
  | some tag =>
      have named := Tag.ofName?_eq_some_iff.1 found
      simp only [List.contains_iff_mem]
      constructor
      · intro allowed
        exact ⟨tag, allowed, named⟩
      · rintro ⟨other, allowed, otherNamed⟩
        exact Tag.eq_of_mem_names otherNamed named ▸ allowed

end Rule

namespace Grammar

theorem rule?_eq_some_iff {name : String} {rule : Rule} :
    rule? name = some rule ↔ ∃ tag : Tag, tag ≠ .text ∧ name ∈ tag.names ∧ tag.rule = rule := by
  unfold rule?
  split
  · next found =>
      refine iff_of_false nofun ?_
      rintro ⟨tag, notText, member, -⟩
      exact notText (Tag.eq_of_mem_names member (Tag.ofName?_eq_some_iff.1 found))
  · next found =>
      refine iff_of_false nofun ?_
      rintro ⟨tag, -, member, -⟩
      rw [Tag.ofName?_eq_some_iff.2 member] at found
      cases found
  · next tag notText found =>
      have named := Tag.ofName?_eq_some_iff.1 found
      constructor
      · intro equal
        exact ⟨tag, notText, named, Option.some.inj equal⟩
      · rintro ⟨other, -, member, rfl⟩
        rw [Tag.eq_of_mem_names member named]

end Grammar

namespace Rule

/-- No rule declares an attribute twice. -/
theorem nodup_attributes (tag : Tag) : (tag.rule.attributes.map Prod.fst).Nodup := by
  cases tag <;> decide +kernel

/-- Looking up an attribute of a rule finds what the rule declares. -/
theorem attribute?_eq_some_iff {tag : Tag} {name : String} {allowed : Allowed} :
    tag.rule.attribute? name = some allowed ↔ (name, allowed) ∈ tag.rule.attributes := by
  have keysNodup := nodup_attributes tag
  rw [attribute?]
  generalize tag.rule.attributes = entries at keysNodup ⊢
  induction entries with
  | nil => simp
  | cons entry rest ih =>
      obtain ⟨key, value⟩ := entry
      simp only [List.map_cons, List.nodup_cons] at keysNodup
      by_cases same : name = key
      · subst same
        have absent : (name, allowed) ∉ rest := fun member =>
          keysNodup.1 (List.mem_map.2 ⟨_, member, rfl⟩)
        simp [absent, eq_comm]
      · have different : (name == key) = false := by simpa using same
        simp [List.lookup_cons, different, same, ih keysNodup.2]

theorem attribute?_eq_none_iff {rule : Rule} {name : String} :
    rule.attribute? name = none ↔ name ∉ rule.attributes.map Prod.fst := by
  rw [attribute?, List.lookup_eq_none_iff, List.mem_map]
  constructor
  · rintro unmatched ⟨entry, member, rfl⟩
    simpa using unmatched entry member
  · intro absent entry member
    simpa using fun equal : name = entry.1 => absent ⟨entry, member, equal.symm⟩

end Rule

end MessageBlocks
