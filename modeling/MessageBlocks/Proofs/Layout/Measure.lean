import MessageBlocks.Proofs.Layout.Exact

/-!
# Widths of texts

Without rounding the width of a text is the sum of the widths of its letters. Letters of valid
metrics have no negative widths, so neither have texts if the fallback is not negative.
-/

namespace MessageBlocks.Engine

variable {engine : Engine ℚ}

theorem measure_eq_sum (engine : Engine ℚ) (text : List Char) :
    engine.measure text = (text.map engine.letterWidth).sum := by
  rw [measure, List.sum_eq_foldl, List.foldl_map]
  rfl

/-- A width of a letter is one of the metrics or the fallback. -/
theorem letterWidth_cases (engine : Engine ℚ) (letter : Char) :
    (∃ entry ∈ engine.metrics.letters, engine.letterWidth letter = entry.2) ∨
      engine.letterWidth letter = engine.fallback := by
  rw [letterWidth]
  cases found : Keyed.find? letter engine.metrics.letters with
  | none => exact .inr rfl
  | some width => exact .inl ⟨_, Keyed.mem_of_find?_eq_some found, rfl⟩

section Nonneg

variable (valid : engine.metrics.isValid = true) (fallback : 0 ≤ engine.fallback)

include valid fallback

theorem letterWidth_nonneg (letter : Char) : 0 ≤ engine.letterWidth letter := by
  rcases engine.letterWidth_cases letter with ⟨entry, member, same⟩ | same
  · have width := (Metrics.isValid_iff.1 valid).1 entry member
    rw [same]
    simpa [Metrics.isLetterWidth, Width.below, Width.zero, Width.isFinite] using width
  · rw [same]
    exact fallback

theorem measure_nonneg (text : List Char) : 0 ≤ engine.measure text := by
  rw [measure_eq_sum]
  refine List.sum_nonneg fun width member => ?_
  obtain ⟨letter, -, rfl⟩ := List.mem_map.1 member
  exact letterWidth_nonneg valid fallback letter

end Nonneg

/-- A text is no wider than that many letters of the greatest width. -/
theorem measure_le {most : ℚ} (letters : ∀ entry ∈ engine.metrics.letters, entry.2 ≤ most)
    (fallback : engine.fallback ≤ most) (text : List Char) :
    engine.measure text ≤ text.length * most := by
  have each : ∀ width ∈ text.map engine.letterWidth, width ≤ most := by
    intro width member
    obtain ⟨letter, -, rfl⟩ := List.mem_map.1 member
    rcases engine.letterWidth_cases letter with ⟨entry, entryMember, same⟩ | same
    · exact same ▸ letters entry entryMember
    · exact same ▸ fallback
  have bound := List.sum_le_card_nsmul _ _ each
  rwa [List.length_map, nsmul_eq_mul, ← measure_eq_sum] at bound

end MessageBlocks.Engine
