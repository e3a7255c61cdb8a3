import MessageBlocks.Proofs.Grammar.Acceptance

/-!
# The first violation

Every node of a tree has checks of its own: text has to be allowed where it stands, and
an element needs a rule, a place under its parent and attributes that its rule accepts.
The nodes are ordered as they are met from the root on, each one before its children,
which is the lexicographic order of the positions that lead to them. The main result is
that the checker reports the first check that fails in this order, at the place of the
node to which it belongs.
-/

namespace MessageBlocks

/-- What a node stands under: the name of its parent and the parent's rule. -/
structure Host where
  kind : String
  rule : Rule

namespace Host

/-- The place above the root. -/
def top : Host :=
  ⟨topName, Tag.top.rule⟩

/-- `host.Reaches node steps below other`: from `node`, which stands under `host`, the steps
lead down to `other`, which stands under `below`. A step names the type of the child to
which it leads and counts all children before it, blank text included. -/
inductive Reaches : Host → Node → List Step → Host → Node → Prop where
  | here (host : Host) (node : Node) : Reaches host node [] host node
  | down {host below : Host} {element : Element} {rule : Rule} {index : Nat}
      {child other : Node} {steps : List Step} (ruled : Grammar.rule? element.kind = some rule)
      (placed : element.children[index]? = some child)
      (further : Reaches ⟨element.kind, rule⟩ child steps below other) :
      Reaches host (.element element) (⟨child.kind, index⟩ :: steps) below other

end Host

/-- A rule accepts an attribute if it declares it and the value is null or, where the rule
lists literals, has one of them. -/
def Rule.Accepts (rule : Rule) (entry : String × AttributeValue) : Prop :=
  entry.1 ∈ rule.attributes.map Prod.fst ∧ (entry.2.isNull = false →
    ∀ literals, (entry.1, .oneOf literals) ∈ rule.attributes → entry.2.literal ∈ literals)

namespace Node

/-- The checks of a node itself pass. -/
def Passes (host : Host) : Node → Prop
  | .text content => Text.trim content.toList ≠ [] → textKind ∈ host.rule.childNames
  | .element child =>
      ∃ rule, Grammar.rule? child.kind = some rule ∧ child.kind ∈ host.rule.childNames ∧
        ∀ entry ∈ child.attributes.entries, rule.Accepts entry

/-- A check of a node itself fails with a violation, and its checks before that one pass.
Attributes are checked in the order of their names. -/
inductive Fails (host : Host) (location : Location) : Node → Violation → Prop where
  | text {content : String} (visible : Text.trim content.toList ≠ [])
      (misplaced : textKind ∉ host.rule.childNames) :
      Fails host location (.text content) (.invalidChild host.kind textKind location)
  | unknown {child : Element} (unruled : Grammar.rule? child.kind = none) :
      Fails host location (.element child) (.unknownType child.kind location)
  | place {child : Element} {rule : Rule} (ruled : Grammar.rule? child.kind = some rule)
      (misplaced : child.kind ∉ host.rule.childNames) :
      Fails host location (.element child) (.invalidChild host.kind child.kind location)
  | undeclared {child : Element} {rule : Rule} {name : String} {value : AttributeValue}
      (ruled : Grammar.rule? child.kind = some rule)
      (placed : child.kind ∈ host.rule.childNames)
      (member : (name, value) ∈ child.attributes.entries)
      (before : ∀ entry ∈ child.attributes.entries, entry.1 < name → rule.Accepts entry)
      (absent : name ∉ rule.attributes.map Prod.fst) :
      Fails host location (.element child) (.invalidAttribute child.kind name location)
  | unlisted {child : Element} {rule : Rule} {name : String} {value : AttributeValue}
      {literals : List String} (ruled : Grammar.rule? child.kind = some rule)
      (placed : child.kind ∈ host.rule.childNames)
      (member : (name, value) ∈ child.attributes.entries)
      (before : ∀ entry ∈ child.attributes.entries, entry.1 < name → rule.Accepts entry)
      (declared : (name, .oneOf literals) ∈ rule.attributes) (notNull : value.isNull = false)
      (other : value.literal ∉ literals) :
      Fails host location (.element child)
        (.invalidAttributeValue child.kind name value.literal literals location)

end Node

/-- A violation shows the place of the node whose check fails. -/
theorem Node.Fails.text_location {host : Host} {location : Location} {node : Node}
    {violation : Violation} (fails : node.Fails host location violation) :
    violation.location.text = location.text := by
  cases fails <;> rfl

/-- The place to which steps lead from a location. -/
def Location.extend (location : Location) (steps : List Step) : Location :=
  ⟨location.root, location.steps ++ steps⟩

/-- The positions in a path, from the root down. -/
def Step.positions (steps : List Step) : List Nat :=
  steps.map Step.index

namespace Host

variable {host : Host} {node : Node} {location : Location} {violation : Violation}

/-- All checks of a node and of everything below it pass. -/
def Clean (host : Host) (node : Node) : Prop :=
  ∀ steps below other, host.Reaches node steps below other → other.Passes below

/-- The first check that fails at a node or below it fails with a violation. -/
def FirstFailure (host : Host) (node : Node) (location : Location) (violation : Violation) :
    Prop :=
  ∃ steps below other, host.Reaches node steps below other ∧
    other.Fails below (location.extend steps) violation ∧
    ∀ earlier above former, host.Reaches node earlier above former →
      Step.positions earlier < Step.positions steps → former.Passes above

theorem reaches_text_iff {content : String} {steps : List Step} {below : Host} {other : Node} :
    host.Reaches (.text content) steps below other ↔
      steps = [] ∧ below = host ∧ other = .text content := by
  constructor
  · rintro ⟨⟩
    exact ⟨rfl, rfl, rfl⟩
  · rintro ⟨rfl, rfl, rfl⟩
    exact .here _ _

/-- A text is clean if it may stand where it is. -/
theorem clean_text_iff {content : String} :
    host.Clean (.text content) ↔ Node.Passes host (.text content) := by
  constructor
  · intro clean
    exact clean _ _ _ (.here host _)
  · intro passes steps below other reaches
    obtain ⟨rfl, rfl, rfl⟩ := reaches_text_iff.1 reaches
    exact passes

/-- An element is clean if its own checks pass and all its children are clean. -/
theorem clean_element_iff {element : Element} :
    host.Clean (.element element) ↔
      Node.Passes host (.element element) ∧ ∀ rule, Grammar.rule? element.kind = some rule →
        ∀ child ∈ element.children, Clean ⟨element.kind, rule⟩ child := by
  constructor
  · intro clean
    refine ⟨clean _ _ _ (.here host _), fun rule ruled child member => ?_⟩
    obtain ⟨index, placed⟩ := List.mem_iff_getElem?.1 member
    intro steps below other reaches
    exact clean _ _ _ (.down ruled placed reaches)
  · rintro ⟨passes, children⟩ steps below other reaches
    cases reaches with
    | here => exact passes
    | down ruled placed further =>
        exact children _ ruled _ (List.mem_of_getElem? placed) _ _ _ further

theorem firstFailure_text_iff {content : String} :
    host.FirstFailure (.text content) location violation ↔
      Node.Fails host location (.text content) violation := by
  constructor
  · rintro ⟨steps, below, other, reaches, fails, -⟩
    obtain ⟨rfl, rfl, rfl⟩ := reaches_text_iff.1 reaches
    simpa [Location.extend] using fails
  · intro fails
    refine ⟨[], host, _, .here host _, by simpa [Location.extend] using fails, ?_⟩
    intro earlier above former reaches before
    exact absurd before (List.not_lt_nil _)

theorem extend_child (location : Location) (step : Step) (steps : List Step) :
    (location.child step.kind step.index).extend steps = location.extend (step :: steps) := by
  simp [Location.extend, Location.child]

/-- The first failure at an element is one of its own, or its own checks pass and it is the
first failure at a child such that all children before it are clean. -/
theorem firstFailure_element_iff {element : Element} :
    host.FirstFailure (.element element) location violation ↔
      Node.Fails host location (.element element) violation ∨
        (Node.Passes host (.element element) ∧
          ∃ rule, Grammar.rule? element.kind = some rule ∧
            ∃ index child, element.children[index]? = some child ∧
              FirstFailure ⟨element.kind, rule⟩ child (location.child child.kind index)
                violation ∧
              ∀ position < index, ∀ sibling, element.children[position]? = some sibling →
                Clean ⟨element.kind, rule⟩ sibling) := by
  constructor
  · rintro ⟨steps, below, other, reaches, fails, before⟩
    cases reaches with
    | here => exact .inl (by simpa [Location.extend] using fails)
    | @down _ _ _ rule index child _ steps ruled placed further =>
        rw [← extend_child] at fails
        refine .inr ⟨before [] host _ (.here host _) (List.nil_lt_cons _ _), rule, ruled, index,
          child, placed, ⟨steps, below, other, further, fails, ?_⟩, ?_⟩
        · intro earlier above former reaches inside
          exact before _ _ _ (.down ruled placed reaches)
            (List.cons_lt_cons_iff.2 (.inr ⟨rfl, inside⟩))
        · intro position less sibling siblingPlaced earlier above former reaches
          exact before _ _ _ (.down ruled siblingPlaced reaches)
            (List.cons_lt_cons_iff.2 (.inl less))
  · rintro (fails | ⟨passes, rule, ruled, index, child, placed,
      ⟨steps, below, other, reaches, fails, before⟩, clean⟩)
    · refine ⟨[], host, _, .here host _, by simpa [Location.extend] using fails, ?_⟩
      intro earlier above former reaches less
      exact absurd less (List.not_lt_nil _)
    · refine ⟨_, below, other, .down ruled placed reaches, by rwa [← extend_child], ?_⟩
      intro earlier above former formerReaches less
      cases formerReaches with
      | here => exact passes
      | @down _ _ _ otherRule position sibling _ earlier otherRuled siblingPlaced further =>
          obtain rfl : rule = otherRule := Option.some.inj (ruled.symm.trans otherRuled)
          rcases List.cons_lt_cons_iff.1 less with sooner | ⟨same, inside⟩
          · exact clean position sooner sibling siblingPlaced _ _ _ further
          · obtain rfl : position = index := same
            obtain rfl : child = sibling := Option.some.inj (placed.symm.trans siblingPlaced)
            exact before _ _ _ further inside

end Host

section Checks

variable {host : Host} {location : Location} {violation : Violation}

theorem checkPlace_eq_error_iff {parent kind : String} {parentRule : Rule} :
    checkPlace parent parentRule kind location = .error violation ↔
      (Grammar.rule? kind = none ∧ violation = .unknownType kind location) ∨
        ((∃ rule, Grammar.rule? kind = some rule) ∧ kind ∉ parentRule.childNames ∧
          violation = .invalidChild parent kind location) := by
  rw [checkPlace, ← Rule.allowsChild_iff]
  cases Grammar.rule? kind with
  | none => simp [@eq_comm _ violation]
  | some rule => cases parentRule.allowsChild kind <;> simp [@eq_comm _ violation]

theorem checkAttribute_eq_error_iff {tag : Tag} {kind name : String} {value : AttributeValue} :
    checkAttribute tag.rule kind location name value = .error violation ↔
      (name ∉ tag.rule.attributes.map Prod.fst ∧
          violation = .invalidAttribute kind name location) ∨
        ∃ literals, (name, .oneOf literals) ∈ tag.rule.attributes ∧ value.isNull = false ∧
          value.literal ∉ literals ∧
          violation = .invalidAttributeValue kind name value.literal literals location := by
  simp only [← Rule.attribute?_eq_none_iff, ← Rule.attribute?_eq_some_iff]
  unfold checkAttribute
  split
  · next absent => simp [absent, @eq_comm _ violation]
  · next found => simp [found]
  · next literals found =>
      cases value.isNull <;> by_cases listed : value.literal ∈ literals <;>
        simp [found, listed, Allowed.permits, @eq_comm _ violation]

/-- Since attributes are sorted, those before the first one that is refused are the ones with
lesser names. -/
theorem checkAttributes_eq_error_iff {tag : Tag} {kind : String}
    {entries : List (String × AttributeValue)} (sorted : Keyed.Sorted entries) :
    checkAttributes tag.rule kind location entries = .error violation ↔
      ∃ entry ∈ entries,
        (∀ other ∈ entries, other.1 < entry.1 → tag.rule.Accepts other) ∧
          checkAttribute tag.rule kind location entry.1 entry.2 = .error violation := by
  induction entries with
  | nil => simp [checkAttributes]
  | cons head rest ih =>
      have headBelow := (List.pairwise_cons.1 sorted).1
      have restSorted := (List.pairwise_cons.1 sorted).2
      have accepted : checkAttribute tag.rule kind location head.1 head.2 = .ok () ↔
          tag.rule.Accepts head := checkAttribute_eq_ok_iff
      rw [checkAttributes, bind_eq_error_iff, ih restSorted]
      constructor
      · rintro (refused | ⟨_, passes, entry, member, before, refused⟩)
        · refine ⟨head, List.mem_cons_self, fun other member less => ?_, refused⟩
          rcases List.mem_cons.1 member with rfl | inRest
          · exact absurd less (Std.lt_irrefl)
          · exact absurd (Std.lt_trans less (headBelow other inRest)) Std.lt_irrefl
        · refine ⟨entry, List.mem_cons_of_mem _ member, fun other otherMember less => ?_, refused⟩
          rcases List.mem_cons.1 otherMember with rfl | inRest
          · exact accepted.1 passes
          · exact before other inRest less
      · rintro ⟨entry, member, before, refused⟩
        rcases List.mem_cons.1 member with rfl | inRest
        · exact .inl refused
        · refine .inr ⟨(), accepted.2 (before head List.mem_cons_self (headBelow entry inRest)),
            entry, inRest, fun other otherMember => before other ?_, refused⟩
          exact List.mem_cons_of_mem _ otherMember

/-- The checks that an element makes before those of its children. -/
theorem fails_element_iff {element : Element} :
    Node.Fails host location (.element element) violation ↔
      checkPlace host.kind host.rule element.kind location = .error violation ∨
        ∃ rule, checkPlace host.kind host.rule element.kind location = .ok rule ∧
          checkAttributes rule element.kind location element.attributes.entries =
            .error violation := by
  rw [checkPlace_eq_error_iff]
  simp only [checkPlace_eq_ok_iff]
  constructor
  · intro fails
    cases fails with
    | unknown unruled => exact .inl (.inl ⟨unruled, rfl⟩)
    | place ruled misplaced => exact .inl (.inr ⟨⟨_, ruled⟩, misplaced, rfl⟩)
    | undeclared ruled placed member before absent =>
        obtain ⟨tag, -, -, rfl⟩ := Grammar.rule?_eq_some_iff.1 ruled
        refine .inr ⟨_, ⟨ruled, placed⟩, ?_⟩
        exact (checkAttributes_eq_error_iff element.attributes.sorted).2
          ⟨_, member, before, checkAttribute_eq_error_iff.2 (.inl ⟨absent, rfl⟩)⟩
    | unlisted ruled placed member before declared notNull other =>
        obtain ⟨tag, -, -, rfl⟩ := Grammar.rule?_eq_some_iff.1 ruled
        refine .inr ⟨_, ⟨ruled, placed⟩, ?_⟩
        exact (checkAttributes_eq_error_iff element.attributes.sorted).2 ⟨_, member, before,
          checkAttribute_eq_error_iff.2 (.inr ⟨_, declared, notNull, other, rfl⟩)⟩
  · rintro ((⟨unruled, rfl⟩ | ⟨⟨rule, ruled⟩, misplaced, rfl⟩) | ⟨rule, ⟨ruled, placed⟩, refused⟩)
    · exact .unknown unruled
    · exact .place ruled misplaced
    · obtain ⟨tag, -, -, rfl⟩ := Grammar.rule?_eq_some_iff.1 ruled
      obtain ⟨⟨name, value⟩, member, before, refused⟩ :=
        (checkAttributes_eq_error_iff element.attributes.sorted).1 refused
      rcases checkAttribute_eq_error_iff.1 refused with
        ⟨absent, rfl⟩ | ⟨literals, declared, notNull, other, rfl⟩
      · exact .undeclared ruled placed member before absent
      · exact .unlisted ruled placed member before declared notNull other

theorem passes_element_iff (location : Location) {element : Element} :
    Node.Passes host (.element element) ↔
      ∃ rule, checkPlace host.kind host.rule element.kind location = .ok rule ∧
        checkAttributes rule element.kind location element.attributes.entries = .ok () := by
  simp only [checkPlace_eq_ok_iff]
  constructor
  · rintro ⟨rule, ruled, placed, accepted⟩
    obtain ⟨tag, -, -, rfl⟩ := Grammar.rule?_eq_some_iff.1 ruled
    exact ⟨_, ⟨ruled, placed⟩, checkAttributes_eq_ok_iff.2 fun entry member =>
      checkAttribute_eq_ok_iff.2 (accepted entry member)⟩
  · rintro ⟨rule, ⟨ruled, placed⟩, accepted⟩
    obtain ⟨tag, -, -, rfl⟩ := Grammar.rule?_eq_some_iff.1 ruled
    exact ⟨_, ruled, placed, fun entry member =>
      checkAttribute_eq_ok_iff.1 (checkAttributes_eq_ok_iff.1 accepted entry member)⟩

theorem element_check_eq_ok_iff {element : Element} :
    Element.check host.kind host.rule location element = .ok () ↔
      Node.Passes host (.element element) ∧ ∀ rule, Grammar.rule? element.kind = some rule →
        Node.checkAll element.kind rule location 0 element.children = .ok () := by
  obtain ⟨kind, attributes, children⟩ := element
  rw [Element.check, passes_element_iff location]
  cases placed : checkPlace host.kind host.rule kind location with
  | error refused => simp [bind, Except.bind]
  | ok rule =>
      have ruled := (checkPlace_eq_ok_iff.1 placed).1
      cases checked : checkAttributes rule kind location attributes.entries <;>
        simp [checked, ruled, bind, Except.bind]

theorem element_check_eq_error_iff {element : Element} :
    Element.check host.kind host.rule location element = .error violation ↔
      Node.Fails host location (.element element) violation ∨
        (Node.Passes host (.element element) ∧
          ∃ rule, Grammar.rule? element.kind = some rule ∧
            Node.checkAll element.kind rule location 0 element.children = .error violation) := by
  obtain ⟨kind, attributes, children⟩ := element
  rw [Element.check, passes_element_iff location, fails_element_iff]
  cases placed : checkPlace host.kind host.rule kind location with
  | error refused => simp [bind, Except.bind]
  | ok rule =>
      have ruled := (checkPlace_eq_ok_iff.1 placed).1
      cases checked : checkAttributes rule kind location attributes.entries <;>
        simp [checked, ruled, bind, Except.bind]

/-- The children are checked from the left, so the first one that is refused comes after
children that are not. -/
theorem checkAll_eq_error_iff (host : Host) {nodes : List Node} (index : Nat) :
    Node.checkAll host.kind host.rule location index nodes = .error violation ↔
      ∃ offset node, nodes[offset]? = some node ∧
        Node.check host.kind host.rule location (index + offset) node = .error violation ∧
        ∀ position < offset, ∀ sibling, nodes[position]? = some sibling →
          Node.check host.kind host.rule location (index + position) sibling = .ok () := by
  induction nodes generalizing index with
  | nil => simp [Node.checkAll]
  | cons head rest ih =>
      rw [Node.checkAll, bind_eq_error_iff, ih (index + 1)]
      constructor
      · rintro (refused | ⟨_, passes, offset, node, placed, refused, before⟩)
        · exact ⟨0, head, rfl, refused, fun position less => absurd less (Nat.not_lt_zero _)⟩
        · refine ⟨offset + 1, node, placed, ?_, ?_⟩
          · rwa [← Nat.add_assoc, Nat.add_right_comm]
          · intro position less sibling siblingPlaced
            cases position with
            | zero =>
                obtain rfl := Option.some.inj siblingPlaced
                exact passes
            | succ position =>
                rw [← Nat.add_assoc, Nat.add_right_comm]
                exact before position (Nat.lt_of_succ_lt_succ less) sibling siblingPlaced
      · rintro ⟨offset, node, placed, refused, before⟩
        cases offset with
        | zero =>
            obtain rfl := Option.some.inj placed
            exact .inl refused
        | succ offset =>
            refine .inr ⟨(), before 0 (Nat.succ_pos _) head rfl, offset, node, placed, ?_, ?_⟩
            · rwa [Nat.add_right_comm, Nat.add_assoc]
            · intro position less sibling siblingPlaced
              rw [Nat.add_right_comm, Nat.add_assoc]
              exact before _ (Nat.succ_lt_succ less) sibling siblingPlaced

/-- A child is checked at the place that its type and its position name. -/
theorem node_check_eq_ok_iff (host : Host) {index : Nat} {node : Node}
    (elements : ∀ child, node = .element child → ∀ location,
      (Element.check host.kind host.rule location child = .ok () ↔ host.Clean node)) :
    Node.check host.kind host.rule location index node = .ok () ↔ host.Clean node := by
  cases node with
  | element child => exact elements child rfl _
  | text content =>
      rw [Host.clean_text_iff, Node.check, Node.Passes, ne_eq, Text.trim_eq_nil_iff,
        ← Rule.allowsChild_iff]
      cases Text.isBlankText content.toList <;> cases host.rule.allowsChild textKind <;> simp

theorem node_check_eq_error_iff {index : Nat} {node : Node}
    (elements : ∀ child, node = .element child → ∀ location,
      (Element.check host.kind host.rule location child = .error violation ↔
        host.FirstFailure node location violation)) :
    Node.check host.kind host.rule location index node = .error violation ↔
      host.FirstFailure node (location.child node.kind index) violation := by
  cases node with
  | element child => exact elements child rfl _
  | text content =>
      rw [Host.firstFailure_text_iff, Node.check]
      constructor
      · intro refused
        split at refused
        · cases refused
        · next forbidden =>
            simp only [Bool.or_eq_true, not_or, ← Text.trim_eq_nil_iff,
              Rule.allowsChild_iff] at forbidden
            obtain rfl := Except.error.inj refused
            exact .text forbidden.1 forbidden.2
      · rintro ⟨visible, misplaced⟩
        rw [ne_eq, Text.trim_eq_nil_iff] at visible
        rw [← Rule.allowsChild_iff] at misplaced
        simp [visible, misplaced]
        rfl

/-- The checker passes an element exactly if all checks at it and below it pass. -/
theorem check_eq_ok_iff_clean (element : Element) (host : Host) (location : Location) :
    Element.check host.kind host.rule location element = .ok () ↔
      host.Clean (.element element) := by
  induction element using Element.induction generalizing host location with
  | step element ih =>
      rw [element_check_eq_ok_iff, Host.clean_element_iff]
      refine and_congr_right fun _ => forall₂_congr fun rule _ => ?_
      apply checkAll_eq_ok_iff 0
      intro node member position
      exact node_check_eq_ok_iff ⟨element.kind, rule⟩ fun child same location => by
        subst same
        exact ih child member _ location

/-- The checker refuses an element with the first failure at it or below it. -/
theorem check_eq_error_iff (element : Element) (host : Host) (location : Location) :
    Element.check host.kind host.rule location element = .error violation ↔
      host.FirstFailure (.element element) location violation := by
  induction element using Element.induction generalizing host location with
  | step element ih =>
      rw [element_check_eq_error_iff, Host.firstFailure_element_iff]
      refine or_congr_right (and_congr_right fun _ => exists_congr fun rule =>
        and_congr_right fun _ => ?_)
      rw [checkAll_eq_error_iff ⟨element.kind, rule⟩ 0]
      refine exists_congr fun index => exists_congr fun node => and_congr_right fun placed => ?_
      rw [Nat.zero_add]
      apply and_congr
      · apply node_check_eq_error_iff
        intro child same location
        subst same
        exact ih child (List.mem_of_getElem? placed) _ location
      · refine forall₂_congr fun position _ => forall₂_congr fun sibling siblingPlaced => ?_
        apply node_check_eq_ok_iff
        intro child same location
        subst same
        exact check_eq_ok_iff_clean child ⟨element.kind, rule⟩ location

end Checks

/-- The checker refuses a tree exactly with the first failure of a check: the steps from the
root lead to the node whose check fails, all checks of the nodes before it pass, and so do
the checks of the node itself before the one that fails. The message shows the type of the
root and then the type and the position of every child on the way. -/
theorem validate_eq_error_iff (root : Element) (violation : Violation) :
    root.validate = .error violation ↔
      ∃ steps host node, Host.top.Reaches (.element root) steps host node ∧
        node.Fails host ⟨root.kind, steps⟩ violation ∧
        violation.location.text = root.kind ++ String.join (steps.map fun step =>
          " > " ++ step.kind ++ "[" ++ toString step.index ++ "]") ∧
        ∀ earlier above former, Host.top.Reaches (.element root) earlier above former →
          Step.positions earlier < Step.positions steps → former.Passes above := by
  refine (check_eq_error_iff root Host.top ⟨root.kind, []⟩).trans ?_
  constructor
  · rintro ⟨steps, host, node, reaches, fails, before⟩
    exact ⟨steps, host, node, reaches, fails, fails.text_location, before⟩
  · rintro ⟨steps, host, node, reaches, fails, -, before⟩
    exact ⟨steps, host, node, reaches, fails, before⟩

/-- The blank text before the section counts, and so the section is the second child. -/
example :
    ((Element.ofKind "Blocks").append [.text " ", .element ((Element.ofKind "Section").append
      [.text "a", .element (Element.ofKind "mark")])]).validate =
      .error (.unknownType "mark" ⟨"Blocks", [⟨"Section", 1⟩, ⟨"mark", 1⟩]⟩) := by
  rfl

end MessageBlocks
