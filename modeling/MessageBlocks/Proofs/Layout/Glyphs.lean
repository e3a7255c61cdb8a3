import MessageBlocks.Proofs.Layout.Indents
import Mathlib

/-!
# The order of glyph tables

A glyph table descends: each glyph in it is wider than the next one, whatever the order is in which
glyphs are put in. It has the widths of all of these glyphs and no others, so a font with a space
glyph has a table that is not empty.
-/

namespace MessageBlocks

namespace GlyphTable

variable {W : Type} [Width W] {table : GlyphTable W} {added : Glyph W} {width : W}

/-- Each glyph of the table is wider than all that follow it. -/
def Descends (table : GlyphTable W) : Prop :=
  table.Pairwise fun glyph next => Width.order glyph.width next.width = .gt

/-- Whether the table has a glyph of a given width. -/
def HasWidth (table : GlyphTable W) (width : W) : Prop :=
  ∃ glyph ∈ table, Width.order glyph.width width = .eq

theorem hasWidth_cons {glyph : Glyph W} :
    HasWidth (glyph :: table) width ↔
      Width.order glyph.width width = .eq ∨ HasWidth table width := by
  simp [HasWidth]

variable [Std.TransCmp (Width.order : W → W → Ordering)]

theorem Descends.insert (descends : Descends table) (added : Glyph W) :
    Descends (GlyphTable.insert added table) := by
  induction table with
  | nil => exact List.pairwise_singleton _ _
  | cons head rest ih =>
      obtain ⟨below, restDescends⟩ := List.pairwise_cons.1 descends
      rw [GlyphTable.insert]
      split
      · next wider =>
          refine List.pairwise_cons.2 ⟨fun glyph member => ?_, descends⟩
          rcases List.mem_cons.1 member with rfl | inRest
          · exact wider
          · exact Std.TransCmp.gt_trans wider (below glyph inRest)
      · next same =>
          refine List.pairwise_cons.2 ⟨fun glyph member => ?_, restDescends⟩
          split
          · exact Std.TransCmp.gt_of_eq_of_gt same (below glyph member)
          · exact below glyph member
      · next narrower =>
          refine List.pairwise_cons.2 ⟨fun glyph member => ?_, ih restDescends⟩
          rcases mem_of_mem_insert member with rfl | inRest
          · exact Std.OrientedCmp.gt_of_lt narrower
          · exact below glyph inRest

theorem descends_ofSpaces (spaces : List (String × W)) : Descends (ofSpaces spaces) := by
  suffices ∀ table : GlyphTable W, Descends table →
      Descends (spaces.foldl (fun table entry => insert ⟨entry.2, entry.1⟩ table) table) from
    this [] .nil
  induction spaces with
  | nil => exact fun _ descends => descends
  | cons entry rest ih => exact fun _ descends => ih _ (descends.insert _)

/-- A glyph that is put in takes the place of one of its own width only. -/
theorem hasWidth_insert :
    HasWidth (insert added table) width ↔
      Width.order added.width width = .eq ∨ HasWidth table width := by
  induction table with
  | nil => exact hasWidth_cons
  | cons head rest ih =>
      rw [insert]
      split
      · exact hasWidth_cons
      · next same =>
          have congruent := Std.TransCmp.congr_left (c := width) same
          rw [hasWidth_cons, hasWidth_cons]
          split <;> simp [congruent]
      · rw [hasWidth_cons, hasWidth_cons, ih, or_left_comm]

theorem hasWidth_ofSpaces {spaces : List (String × W)} :
    HasWidth (ofSpaces spaces) width ↔ ∃ entry ∈ spaces, Width.order entry.2 width = .eq := by
  suffices ∀ table : GlyphTable W,
      HasWidth (spaces.foldl (fun table entry => insert ⟨entry.2, entry.1⟩ table) table) width ↔
        HasWidth table width ∨ ∃ entry ∈ spaces, Width.order entry.2 width = .eq by
    have none : ¬ HasWidth ([] : GlyphTable W) width := fun ⟨_, member, _⟩ => nomatch member
    rw [ofSpaces, this, or_iff_right none]
  induction spaces with
  | nil => simp
  | cons entry rest ih =>
      intro table
      rw [List.foldl_cons, ih, hasWidth_insert]
      simp [or_assoc, or_left_comm]

end GlyphTable

/-- Over the rationals widths have the order of the numbers. -/
theorem Width.order_eq_compare (first second : ℚ) :
    Width.order first second = compare first second := by
  rcases lt_trichotomy first second with below | rfl | above
  · rw [compare_lt_iff_lt.2 below]
    exact if_pos below
  · rw [compare_eq_iff_eq.2 rfl]
    simp [Width.order]
  · rw [compare_gt_iff_gt.2 above]
    simp [Width.order, above, not_lt_of_gt above]

instance : Std.TransCmp (Width.order : ℚ → ℚ → Ordering) := by
  have same : (Width.order : ℚ → ℚ → Ordering) = compare :=
    funext fun first => funext fun second => Width.order_eq_compare first second
  rw [same]
  infer_instance

end MessageBlocks
