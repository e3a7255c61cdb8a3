import Mathlib.Data.List.Destutter
import MessageBlocks.Proofs.Text.Collapse
import MessageBlocks.Proofs.Text.EscapeLayout

/-!
# Runs of spacing

To collapse spacing is to read every spacing character as a space and to drop each space that
follows another. Who collapses a text from left to right has to remember of what is done only
whether it ends in spacing. So a text may be collapsed in parts, parts may be collapsed ahead, and
the escape may come first, as no entity has spacing in it.
-/

namespace MessageBlocks.Text

variable {character : Char} {inRun : Bool}

/-- A character as it is written in collapsed text. -/
def spaced (character : Char) : Char :=
  if isSpacing character then ' ' else character

/-- Two characters that may be neighbours in collapsed text. -/
def Apart (character next : Char) : Prop :=
  ¬ (isSpacing character = true ∧ isSpacing next = true)

instance : DecidableRel Apart :=
  fun _ _ => inferInstanceAs (Decidable (¬ _))

theorem isSpacing_spaced (character : Char) :
    isSpacing (spaced character) = isSpacing character := by
  cases spacing : isSpacing character with
  | true =>
      rw [spaced, spacing]
      rfl
  | false => simp [spaced, spacing]

theorem collapse_cons (character : Char) (rest : List Char) :
    collapse (character :: rest) = spaced character :: collapseFrom (isSpacing character) rest := by
  cases spacing : isSpacing character <;> simp [collapse, collapseFrom, spaced, spacing]

theorem cons_collapseFrom_eq_destutter' (character : Char) (rest : List Char) :
    spaced character :: collapseFrom (isSpacing character) rest =
      (rest.map spaced).destutter' Apart (spaced character) := by
  induction rest generalizing character with
  | nil => rfl
  | cons next rest ih =>
      rw [List.map_cons]
      by_cases joined : isSpacing character = true ∧ isSpacing next = true
      · obtain ⟨spacing, nextSpacing⟩ := joined
        have notApart : ¬ Apart (spaced character) (spaced next) := by
          simp [Apart, isSpacing_spaced, spacing, nextSpacing]
        have following := ih character
        rw [List.destutter'_cons_neg _ notApart, ← following]
        simp [collapseFrom, spacing, nextSpacing]
      · have apart : Apart (spaced character) (spaced next) := by
          rwa [Apart, isSpacing_spaced, isSpacing_spaced]
        have opens :
            collapseFrom (isSpacing character) (next :: rest) = collapse (next :: rest) := by
          cases spacing : isSpacing character with
          | true =>
              have nextInk : isSpacing next = false := by simpa [spacing] using joined
              simp [collapse, collapseFrom, nextInk]
          | false => rfl
        rw [List.destutter'_cons_pos _ apart, ← ih next, opens, collapse_cons]

/-- Each run of spacing is one space, and all else stays. -/
theorem collapse_eq_destutter (text : List Char) :
    collapse text = (text.map spaced).destutter Apart := by
  cases text with
  | nil => rfl
  | cons character rest =>
      rw [collapse_cons, cons_collapseFrom_eq_destutter', List.map_cons, List.destutter_cons']

theorem isChain_collapse (text : List Char) : (collapse text).IsChain Apart := by
  rw [collapse_eq_destutter]
  exact List.isChain_destutter _ _

theorem runAfter_collapseFrom (inRun : Bool) (text : List Char) :
    runAfter inRun (collapseFrom inRun text) = runAfter inRun text := by
  induction text generalizing inRun with
  | nil => rfl
  | cons character rest ih =>
      have space : isSpacing ' ' = true := rfl
      cases spacing : isSpacing character <;> cases inRun <;>
        simp [collapseFrom, runAfter, spacing, space, ih]

/-- What is collapsed ahead, with no more known of what is in front of it, comes out the same. -/
theorem collapseFrom_collapseFrom {before : Bool} (known : before = true → inRun = true)
    (text : List Char) :
    collapseFrom inRun (collapseFrom before text) = collapseFrom inRun text := by
  induction text generalizing before inRun with
  | nil => rfl
  | cons character rest ih =>
      have space : isSpacing ' ' = true := rfl
      have ahead (inRun : Bool) :
          collapseFrom inRun (collapseFrom inRun rest) = collapseFrom inRun rest := ih id
      cases spacing : isSpacing character with
      | false => simp [collapseFrom, spacing, ahead]
      | true =>
          cases before with
          | false => simp [collapseFrom, spacing, space, ahead]
          | true => simp [collapseFrom, spacing, known rfl, ahead]

theorem collapse_collapse (text : List Char) : collapse (collapse text) = collapse text :=
  collapseFrom_collapseFrom id text

/-- At the seam of two parts there may be a run that each of them has an end of. -/
theorem collapse_parts (first second : List Char) :
    collapse (collapse first ++ collapse second) = collapse (first ++ second) := by
  have seam : runAfter false (collapse first) = runAfter false first :=
    runAfter_collapseFrom false first
  have ahead (inRun : Bool) : collapseFrom inRun (collapse second) = collapseFrom inRun second := by
    have known : false = true → inRun = true := nofun
    exact collapseFrom_collapseFrom known second
  calc
    collapse (collapse first ++ collapse second) = collapse (collapse first) ++
        collapseFrom (runAfter false (collapse first)) (collapse second) :=
      collapseFrom_append false _ _
    _ = collapse first ++ collapseFrom (runAfter false first) (collapse second) := by
      rw [collapse_collapse, seam]
    _ = collapse first ++ collapseFrom (runAfter false first) second := by
      rw [ahead]
    _ = collapse (first ++ second) := (collapseFrom_append false first second).symm

theorem IsTrimmable.spacing : IsTrimmable isSpacing where
  plain character spacing := by
    rcases eq_of_isSpacing spacing with rfl | rfl | rfl | rfl | rfl <;> rfl
  starts := rfl
  ends := rfl

theorem collapseFrom_escapeChar (notSpacing : isSpacing character = false) (inRun : Bool)
    (rest : List Char) :
    collapseFrom inRun (escapeChar character ++ rest) = escapeChar character ++ collapse rest := by
  rw [escapeChar]
  split
  · rfl
  · split
    · rfl
    · split
      · rfl
      · simp [collapseFrom, notSpacing, collapse]

theorem collapseFrom_escape (inRun : Bool) (text : List Char) :
    collapseFrom inRun (escape text) = escape (collapseFrom inRun text) := by
  induction text generalizing inRun with
  | nil => rfl
  | cons character rest ih =>
      have written : escape (character :: rest) = escapeChar character ++ escape rest := rfl
      cases spacing : isSpacing character with
      | true =>
          have space : escape (' ' :: collapseFrom true rest) =
              ' ' :: collapseFrom true (escape rest) := by
            rw [escape_cons_of_isPlain rfl, ih]
          rw [written, IsTrimmable.spacing.fixed character spacing]
          cases inRun with
          | true => simp [collapseFrom, spacing, ih]
          | false => simp [collapseFrom, spacing, space]
      | false =>
          have kept : collapseFrom inRun (character :: rest) = character :: collapse rest := by
            simp [collapseFrom, spacing, collapse]
          rw [written, collapseFrom_escapeChar spacing, kept, collapse, ih]
          rfl

/-- The escape can be undone and leaves no angle bracket. Collapsing changes nothing but spacing, of
which it leaves single spaces, and it may as well be done again, in parts or after the escape. -/
theorem normalisation_laws (first second : List Char) :
    (unescape (escape first) = first ∧ '<' ∉ escape first ∧ '>' ∉ escape first) ∧
      (collapse first = (first.map spaced).destutter Apart ∧
        collapse (collapse first) = collapse first ∧
        (collapse first).IsChain Apart ∧
        (collapse first).filter (!isSpacing ·) = first.filter (!isSpacing ·)) ∧
      collapse (first ++ second) = collapse (collapse first ++ collapse second) ∧
      escape (collapse first) = collapse (escape first) :=
  ⟨⟨unescape_escape first, open_notMem_escape first, close_notMem_escape first⟩,
    ⟨collapse_eq_destutter first, collapse_collapse first, isChain_collapse first,
      filter_collapse (by simp) first⟩,
    (collapse_parts first second).symm, (collapseFrom_escape false first).symm⟩

end MessageBlocks.Text
