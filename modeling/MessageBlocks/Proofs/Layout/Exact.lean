import MessageBlocks.Layout.Engine
import MessageBlocks.Proofs.Number.Value

/-!
# Layout without rounding

The widths of an engine are doubles, which stand for rational numbers. With these numbers in their
place the engine lays out without rounding. Metrics that have been found valid are valid as rational
numbers, too.
-/

namespace MessageBlocks

open Number

namespace Metrics

/-- The metrics with the numbers that their widths stand for. -/
def exact (metrics : Metrics Float) : Metrics ℚ where
  letters := metrics.letters.map fun entry => (entry.1, exactValue entry.2)
  spaces := metrics.spaces.map fun entry => (entry.1, exactValue entry.2)

theorem isValid_iff {W : Type} [Width W] {metrics : Metrics W} :
    metrics.isValid = true ↔
      (∀ entry ∈ metrics.letters, isLetterWidth entry.2 = true) ∧
        ∀ entry ∈ metrics.spaces, entry.1.isEmpty = false ∧ isGlyphWidth entry.2 = true := by
  have letters (entry : Char × W) :
      letterDefect? entry = none ↔ isLetterWidth entry.2 = true := by
    rw [letterDefect?]
    split <;> simp_all
  have glyphs (entry : String × W) :
      glyphDefect? entry = none ↔ entry.1.isEmpty = false ∧ isGlyphWidth entry.2 = true := by
    rw [glyphDefect?]
    split
    · simp_all
    · split <;> simp_all
  rw [isValid, Option.isNone_iff_eq_none, defect?, Option.or_eq_none_iff,
    List.findSome?_eq_none_iff, List.findSome?_eq_none_iff]
  simp only [letters, glyphs]

theorem isValid_of_read {document : String} {metrics : Metrics Float}
    (accepted : read document = .ok metrics) : metrics.isValid = true := by
  rw [read] at accepted
  split at accepted
  · cases accepted
  · split at accepted
    · cases accepted
    · next noDefect =>
        obtain rfl := Except.ok.inj accepted
        rw [isValid, noDefect, Option.isNone_none]

theorem isValid_exact {metrics : Metrics Float} (valid : metrics.isValid = true) :
    metrics.exact.isValid = true := by
  obtain ⟨letters, spaces⟩ := isValid_iff.1 valid
  refine isValid_iff.2 ⟨fun entry member => ?_, fun entry member => ?_⟩
  · obtain ⟨original, originalMember, rfl⟩ := List.mem_map.1 member
    have width := letters original originalMember
    simp only [isLetterWidth, Bool.and_eq_true, Bool.not_eq_true'] at width ⊢
    have notNegative : ¬ original.2 < 0 := of_decide_eq_false width.2
    exact ⟨rfl, decide_eq_false (not_lt.2 (exactValue_nonneg width.1 notNegative))⟩
  · obtain ⟨original, originalMember, rfl⟩ := List.mem_map.1 member
    obtain ⟨notEmpty, width⟩ := spaces original originalMember
    simp only [isGlyphWidth, Bool.and_eq_true] at width ⊢
    have positive : 0 < original.2 := of_decide_eq_true width.2
    exact ⟨notEmpty, rfl, decide_eq_true (exactValue_pos width.1 positive)⟩

end Metrics

/-- The engine with the numbers that its widths stand for. -/
def Engine.exact (engine : Engine Float) : Engine ℚ :=
  ⟨engine.metrics.exact, exactValue engine.fallback⟩

end MessageBlocks
