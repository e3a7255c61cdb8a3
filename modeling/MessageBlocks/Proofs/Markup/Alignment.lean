import MessageBlocks.Proofs.Layout.Measure
import MessageBlocks.Proofs.Markup.RenderLaw

/-!
# Alignment of lists

A list is laid out item by item. The first line of an item is its marker, padded so that all markers
of the list end where the widest one ends, and the other lines are indented past the widest marker
and a space. This module says so with the lines that the content of each item has by itself, in
place of the queries that render it.
-/

namespace MessageBlocks

section Items

variable {W : Type} [Width W]

/-- The lines of a list item, given its marker and the lines of its content. -/
def ListItem.lines (engine : Engine W) (widest : W) (marker : List Char) :
    List (Line W) → List (Line W)
  | [] => [⟨widest - engine.measure marker, marker⟩]
  | first :: rest =>
      ⟨widest - engine.measure marker, marker ++ ' ' :: first.shown engine⟩ ::
        rest.map fun line =>
          if line.isBlank then Line.flush []
          else ⟨widest + engine.measure [' '] + line.indent, line.text⟩

/-- The width of the widest marker of a list. -/
def ListKind.widest (engine : Engine W) (kind : ListKind) (depth : Nat) (items : List ListItem) :
    W :=
  ((kind.markers depth items).map engine.measure).foldl Width.larger Width.zero

/-- The lines of a list: those of its items, one item after the other. -/
def ListKind.itemLines (engine : Engine W) (kind : ListKind) (depth : Nat)
    (items : List ListItem) : List (Line W) :=
  (List.zipWith (fun marker item =>
      ListItem.lines engine (kind.widest engine depth items) marker
        ((Markup.lines (depth + 1) item.children).answer engine))
    (kind.markers depth items) items).flatten

theorem ListItem.length_lines (engine : Engine W) (widest : W) (marker : List Char)
    (body : List (Line W)) :
    (ListItem.lines engine widest marker body).length = max 1 body.length := by
  cases body with
  | nil => rfl
  | cons first rest => simp [ListItem.lines]

theorem ListKind.length_markers (kind : ListKind) (depth : Nat) (items : List ListItem) :
    (kind.markers depth items).length = items.length := by
  rw [markers, List.length_map, RenderLaw.length_numbers]

theorem ItemBody.lines_ofLines (engine : Engine W) (widest : W) (marker : List Char)
    (body : List (Line W)) :
    ((ItemBody.ofLines body).answer engine).lines marker (widest - engine.measure marker)
        (widest + engine.measure [' ']) = ListItem.lines engine widest marker body := by
  cases body with
  | nil => rfl
  | cons first rest =>
      rw [ItemBody.ofLines, Query.answer_bind, Line.render_answer, Query.answer_pure]
      refine congrArg (List.cons _) (List.map_congr_left fun line _ => ?_)
      cases blank : line.isBlank with
      | false => simp
      | true => simp [List.isEmpty_iff.1 blank]

theorem ListItem.bodies_answer (engine : Engine W) (depth : Nat) (items : List ListItem) :
    (ListItem.bodies depth items).answer engine = items.map fun item =>
      (ItemBody.ofLines ((Markup.lines depth item.children).answer engine)).answer engine := by
  induction items with
  | nil => rfl
  | cons item rest ih =>
      obtain ⟨number, children⟩ := item
      rw [ListItem.bodies, List.map_cons, ← ih, Markup.lines_answer]
      simp only [Query.answer_bind, Query.answer_pure]

theorem ListKind.lines_bodies (engine : Engine W) (widest : W) (content : ListItem → List (Line W))
    (markers : List (List Char)) (items : List ListItem) :
    ListKind.lines widest (engine.measure [' ']) markers (markers.map engine.measure)
        (items.map fun item => (ItemBody.ofLines (content item)).answer engine) =
      (List.zipWith (fun marker item => ListItem.lines engine widest marker (content item))
        markers items).flatten := by
  induction markers generalizing items with
  | nil => rfl
  | cons marker markers ih =>
      cases items with
      | nil => rfl
      | cons item items =>
          rw [List.map_cons, List.map_cons, ListKind.lines, ItemBody.lines_ofLines, ih]
          rfl

/-- A list is a block of the lines of its items. -/
theorem Markup.piece_list_answer (engine : Engine W) (depth : Nat) (kind : ListKind)
    (items : List ListItem) :
    (Markup.piece depth (.list kind items)).answer engine =
      .block (kind.itemLines engine depth items) := by
  rw [Markup.piece]
  simp only [Query.answer_bind, Query.answer_width, Query.answer_pure, measureAll_answer,
    ListItem.bodies_answer, ListKind.lines_bodies]
  rfl

/-- Each line of a list is one of some item, behind the marker of some number, and all lines of that
item are in the list. -/
theorem ListKind.exists_of_mem_itemLines {engine : Engine W} {kind : ListKind} {depth : Nat}
    {items : List ListItem} {line : Line W} (member : line ∈ kind.itemLines engine depth items) :
    ∃ number, ∃ item ∈ items,
      line ∈ ListItem.lines engine (kind.widest engine depth items) (kind.marker depth number)
        ((Markup.lines (depth + 1) item.children).answer engine) ∧
      ListItem.lines engine (kind.widest engine depth items) (kind.marker depth number)
        ((Markup.lines (depth + 1) item.children).answer engine) ⊆
          kind.itemLines engine depth items := by
  obtain ⟨lines, linesMember, inLines⟩ := List.mem_flatten.1 member
  have among : lines ⊆ kind.itemLines engine depth items := fun other inLines =>
    List.mem_flatten_of_mem linesMember inLines
  rw [← List.map_uncurry_zip_eq_zipWith] at linesMember
  obtain ⟨⟨marker, item⟩, pairMember, rfl⟩ := List.mem_map.1 linesMember
  obtain ⟨markerMember, itemMember⟩ := List.of_mem_zip pairMember
  obtain ⟨number, -, rfl⟩ := List.mem_map.1 markerMember
  exact ⟨number, item, itemMember, inLines, among⟩

end Items

/-! Without rounding the widest marker is the widest one in the list. -/

/-- The width is that of a widest marker: no marker is wider, and one of them is as wide. -/
structure IsWidest (engine : Engine ℚ) (markers : List (List Char)) (widest : ℚ) : Prop where
  le : ∀ marker ∈ markers, engine.measure marker ≤ widest
  attained : markers ≠ [] → ∃ marker ∈ markers, engine.measure marker = widest

theorem Width.larger_eq_max (first second : ℚ) : Width.larger first second = max first second := by
  rw [Width.larger, max_def_lt]
  simp [Width.below]

/-- The largest of some widths is none of them only if it is the one to begin with. -/
theorem Width.foldl_larger (start : ℚ) (widths : List ℚ) :
    start ≤ widths.foldl Width.larger start ∧
      (∀ width ∈ widths, width ≤ widths.foldl Width.larger start) ∧
      (widths.foldl Width.larger start = start ∨ widths.foldl Width.larger start ∈ widths) := by
  induction widths generalizing start with
  | nil => exact ⟨le_rfl, List.forall_mem_nil _, .inl rfl⟩
  | cons width rest ih =>
      obtain ⟨above, all, among⟩ := ih (Width.larger start width)
      have both := max_le_iff.1 ((Width.larger_eq_max start width).symm.trans_le above)
      refine ⟨both.1, List.forall_mem_cons.2 ⟨both.2, all⟩, ?_⟩
      rcases among with same | inRest
      · rw [List.foldl_cons, same, Width.larger_eq_max]
        rcases max_choice start width with isStart | isWidth
        · exact .inl isStart
        · rw [isWidth]
          exact .inr List.mem_cons_self
      · exact .inr (List.mem_cons_of_mem _ inRest)

/-- The width of the widest marker is that of a marker, or there is none above zero. -/
theorem ListKind.widest_cases (engine : Engine ℚ) (kind : ListKind) (depth : Nat)
    (items : List ListItem) :
    kind.widest engine depth items = 0 ∨
      ∃ marker ∈ kind.markers depth items, engine.measure marker = kind.widest engine depth items :=
  (Width.foldl_larger Width.zero _).2.2.imp_right List.mem_map.1

theorem ListKind.isWidest {engine : Engine ℚ} (valid : engine.metrics.isValid = true)
    (fallback : 0 ≤ engine.fallback) (kind : ListKind) (depth : Nat) (items : List ListItem) :
    IsWidest engine (kind.markers depth items) (kind.widest engine depth items) := by
  have le : ∀ marker ∈ kind.markers depth items,
      engine.measure marker ≤ kind.widest engine depth items :=
    fun marker member => (Width.foldl_larger Width.zero _).2.1 _ (List.mem_map_of_mem member)
  refine ⟨le, fun filled => ?_⟩
  rcases kind.widest_cases engine depth items with same | attained
  · obtain ⟨marker, member⟩ := List.exists_mem_of_ne_nil _ filled
    have notAbove : engine.measure marker ≤ 0 := (le marker member).trans_eq same
    have zero := le_antisymm notAbove (Engine.measure_nonneg valid fallback marker)
    exact ⟨marker, member, zero.trans same.symm⟩
  · exact attained

end MessageBlocks
