import MessageBlocks.Proofs.Text.Spacing

/-!
# Collapsed text

Where spacing collapses, ink stands for itself and a run of spacing leaves one space. So there is no
other spacing than spaces in a collapsed text, and neither the escape nor marks nor trimming bring
any in.
-/

namespace MessageBlocks

namespace Text

variable {character : Char} {text first tail : List Char} {inRun : Bool}

/-- Whether the text up to here ends in spacing, if `inRun` says so for what was in front of it. -/
def runAfter : Bool → List Char → Bool
  | inRun, [] => inRun
  | _, character :: rest => runAfter (isSpacing character) rest

theorem collapseFrom_append (inRun : Bool) (first second : List Char) :
    collapseFrom inRun (first ++ second) =
      collapseFrom inRun first ++ collapseFrom (runAfter inRun first) second := by
  induction first generalizing inRun with
  | nil => rfl
  | cons character rest ih =>
      cases spacing : isSpacing character <;> cases inRun <;>
        simp [collapseFrom, runAfter, spacing, ih]

/-- What is not spacing ends a run, so what follows is collapsed by itself. -/
theorem collapse_append (notSpacing : isSpacing character = false) (first tail : List Char) :
    collapse (first ++ character :: tail) = collapse first ++ character :: collapse tail := by
  rw [collapse, collapseFrom_append, collapseFrom, notSpacing]
  rfl

/-- Spacing alone collapses to one space. -/
theorem collapse_of_spacing (spacing : ∀ other ∈ text, isSpacing other = true) :
    collapse text = if text.isEmpty then [] else [' '] := by
  have rest (text : List Char) (spacing : ∀ other ∈ text, isSpacing other = true) :
      collapseFrom true text = [] := by
    induction text with
    | nil => rfl
    | cons other rest ih =>
        obtain ⟨first, others⟩ := List.forall_mem_cons.1 spacing
        simp [collapseFrom, first, ih others]
  cases text with
  | nil => rfl
  | cons other others =>
      obtain ⟨first, further⟩ := List.forall_mem_cons.1 spacing
      simp [collapse, collapseFrom, first, rest others further]

/-- A character other than a space in collapsed text stands for itself. -/
theorem exists_of_collapseFrom_eq {before after : List Char} (notSpace : character ≠ ' ')
    (same : collapseFrom inRun text = before ++ character :: after) :
    ∃ first tail, text = first ++ character :: tail ∧ isSpacing character = false ∧
      collapseFrom inRun first = before ∧ collapse tail = after := by
  induction text generalizing inRun before with
  | nil => simp [collapseFrom] at same
  | cons other rest ih =>
      cases spacing : isSpacing other with
      | true =>
          cases inRun with
          | true =>
              simp only [collapseFrom, spacing, if_true] at same
              obtain ⟨first, tail, rfl, ink, opens, closes⟩ := ih same
              exact ⟨other :: first, tail, rfl, ink, by simp [collapseFrom, spacing, opens], closes⟩
          | false =>
              simp only [collapseFrom, spacing, if_true, Bool.false_eq_true, if_false] at same
              cases before with
              | nil => exact absurd (List.cons.inj same).1.symm notSpace
              | cons space before =>
                  obtain ⟨rfl, further⟩ := List.cons.inj same
                  obtain ⟨first, tail, rfl, ink, opens, closes⟩ := ih further
                  exact ⟨other :: first, tail, rfl, ink, by simp [collapseFrom, spacing, opens],
                    closes⟩
      | false =>
          simp only [collapseFrom, spacing, Bool.false_eq_true, if_false] at same
          cases before with
          | nil =>
              obtain ⟨rfl, rfl⟩ := List.cons.inj same
              exact ⟨[], rest, rfl, spacing, rfl, rfl⟩
          | cons _ before =>
              obtain ⟨rfl, further⟩ := List.cons.inj same
              obtain ⟨first, tail, rfl, ink, opens, closes⟩ := ih further
              exact ⟨other :: first, tail, rfl, ink, by simp [collapseFrom, spacing, opens], closes⟩

theorem eq_of_isSpacing (spacing : isSpacing character = true) :
    character = ' ' ∨ character = '\t' ∨ character = '\n' ∨ character = '\r' ∨
      character = '\x0c' := by
  simpa [isSpacing, or_assoc] using spacing

theorem isInk_of_notSpacing (notSpacing : isSpacing character = false) :
    isInk character = true := by
  simp only [isSpacing, Bool.or_eq_false_iff, beq_eq_false_iff_ne] at notSpacing
  simp [isInk, notSpacing]

/-- No spacing stands in a text but spaces and line feeds. -/
def IsCollapsed (text : List Char) : Prop :=
  ∀ character ∈ text, isInk character = true → isSpacing character = false

instance : Decidable (IsCollapsed text) :=
  List.decidableBAll _ _

namespace IsCollapsed

variable {second : List Char}

theorem append_iff : IsCollapsed (first ++ second) ↔ IsCollapsed first ∧ IsCollapsed second :=
  List.forall_mem_append

theorem of_subset (subset : second ⊆ first) (isCollapsed : IsCollapsed first) :
    IsCollapsed second :=
  fun character member => isCollapsed character (subset member)

theorem unlines {rows : List (List Char)} (all : ∀ row ∈ rows, IsCollapsed row) :
    IsCollapsed (Text.unlines rows) := by
  intro character member ink
  have notFeed : character ≠ '\n' := by
    rintro rfl
    cases ink
  obtain ⟨row, rowMember, inRow⟩ := mem_of_mem_unlines notFeed member
  exact all row rowMember character inRow ink

theorem trimBy {discard : Char → Bool} (isCollapsed : IsCollapsed text) :
    IsCollapsed (Text.trimBy discard text) :=
  isCollapsed.of_subset fun _ member => mem_of_mem_trimBy member

theorem tidy (isCollapsed : IsCollapsed text) : IsCollapsed (Markup.tidy text) := by
  refine (unlines ?_).trimBy
  rw [List.forall_mem_map]
  intro row member
  have own : IsCollapsed row :=
    isCollapsed.of_subset fun _ inRow => mem_of_mem_lines member inRow
  exact own.trimBy

theorem iff_filter : IsCollapsed text ↔
    text.filter (fun character => isInk character && isSpacing character) = [] := by
  simp [IsCollapsed, List.filter_eq_nil_iff]

theorem escape (isCollapsed : IsCollapsed text) : IsCollapsed (Text.escape text) := by
  intro character member ink
  rcases mem_escape member with entity | ⟨original, -⟩
  · have letters : ∀ letter ∈ entityLetters, isSpacing letter = false := by
      simp [entityLetters, isSpacing]
    exact letters character entity
  · exact isCollapsed character original ink

theorem collapse (text : List Char) : IsCollapsed (Text.collapse text) := by
  intro character member ink
  obtain ⟨before, after, same⟩ := List.append_of_mem member
  obtain ⟨-, -, -, notSpacing, -⟩ := exists_of_collapseFrom_eq (ne_space_of_isInk ink) same
  exact notSpacing

theorem marked {mark : Char} (notSpacing : isSpacing mark = false)
    (isCollapsed : IsCollapsed text) : IsCollapsed (Markup.marked mark text) := by
  have noMark : (isInk mark && isSpacing mark) = false := by simp [notSpacing]
  rw [iff_filter, Markup.filter_marked rfl noMark, ← iff_filter]
  exact isCollapsed

theorem notMem (isCollapsed : IsCollapsed text) :
    ∀ sign ∈ ['\t', '\r', '\x0c'], sign ∉ text := by
  have collapses : ∀ sign ∈ ['\t', '\r', '\x0c'], isInk sign = true ∧ isSpacing sign = true := by
    simp [isInk, isSpacing]
  intro sign isSign member
  obtain ⟨ink, spacing⟩ := collapses sign isSign
  rw [isCollapsed sign member ink] at spacing
  cases spacing

end IsCollapsed

end Text

end MessageBlocks
