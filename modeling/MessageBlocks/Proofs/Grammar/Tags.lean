import MessageBlocks.Proofs.Grammar.Acceptance

/-!
# Tags in grammatical trees

Every element of a grammatical tree has a tag whose rule it obeys. So the tags of
its children are among those of the rule, and an attribute for which the rule
lists literals has one of them.
-/

namespace MessageBlocks

/-- An attribute that has a value is an entry that is not null. -/
theorem Attributes.mem_of_get?_eq_some {attributes : Attributes} {name : String}
    {value : AttributeValue} (found : attributes.get? name = some value) :
    (name, value) ∈ attributes.entries ∧ value.isNull = false := by
  obtain ⟨entry, notNull⟩ := Option.filter_eq_some_iff.1 found
  exact ⟨Keyed.mem_of_find?_eq_some entry, by simpa using notNull⟩

namespace Element.Obeys

variable {element child : Element} {rule : Rule}

theorem childTag (obeys : element.Obeys rule) (member : child ∈ element.elements) :
    ∃ tag ∈ rule.children, child.tag? = some tag := by
  obtain ⟨tag, allowed, named⟩ := Rule.mem_childNames.1 (obeys.placed child (mem_elements.1 member))
  exact ⟨tag, allowed, Tag.ofName?_eq_some_iff.2 named⟩

theorem mem_literals (obeys : element.Obeys rule) {name literal : String} {literals : List String}
    (declared : (name, .oneOf literals) ∈ rule.attributes)
    (found : element.literal? name = some literal) : literal ∈ literals := by
  obtain ⟨value, present, rfl⟩ := Option.map_eq_some_iff.1 found
  obtain ⟨entry, notNull⟩ := Attributes.mem_of_get?_eq_some present
  exact obeys.permitted _ entry notNull literals declared

end Element.Obeys

namespace Grammatical

variable {root element : Element}

theorem rootTag (grammatical : Grammatical root) :
    ∃ tag ∈ Grammar.surfaces, root.tag? = some tag := by
  obtain ⟨tag, allowed, named⟩ := Rule.mem_childNames.1 grammatical.surface
  exact ⟨tag, allowed, Tag.ofName?_eq_some_iff.2 named⟩

theorem obeys (grammatical : Grammatical root) (inside : root.Within element) :
    ∃ tag, element.tag? = some tag ∧ element.Obeys tag.rule := by
  obtain ⟨rule, found, obeys⟩ := grammatical.lawful element inside
  obtain ⟨tag, -, named, rfl⟩ := Grammar.rule?_eq_some_iff.1 found
  exact ⟨tag, Tag.ofName?_eq_some_iff.2 named, obeys⟩

theorem obeys_of_tag (grammatical : Grammatical root) (inside : root.Within element) {tag : Tag}
    (tagged : element.tag? = some tag) : element.Obeys tag.rule := by
  obtain ⟨other, otherTagged, obeys⟩ := grammatical.obeys inside
  rw [tagged, Option.some.injEq] at otherTagged
  rw [otherTagged]
  exact obeys

end Grammatical

end MessageBlocks
