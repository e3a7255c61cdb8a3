import MessageBlocks.Layout.Allocation
import MessageBlocks.Proofs.Layout.Growth

/-!
# Stops of a computation

Through a cache a computation goes on until it asks for an indent that is not there and that the
engine cannot make, because the copies of a glyph fit into no text. There it stops, at a width and
with the cache that it has left so far. A computation has no result exactly if it stops somewhere,
it stops at one place only, and up to there the cache has grown as under any answers. Where it does
not stop, its result is that of an engine that could make every indent.
-/

namespace MessageBlocks

variable {W α : Type} [Width W]

/-- An indent cannot be made if its copies of some glyph are too many for a text. -/
theorem Engine.indent?_eq_none_iff {engine : Engine W} {width : W} :
    engine.indent? width = none ↔
      ∃ part ∈ engine.composition width,
        maxBytes < min part.2 maxCount * part.1.text.utf8ByteSize := by
  simp [Engine.indent?, fits, ite_eq_right_iff]

namespace Cache

variable [Profile W] [DecidableEq W] {engine : Engine W} {query : Query W α}
  {cache reached : Cache W} {width : W}

/-- An indent is not in the cache, and the engine cannot make it. -/
structure Refuses (cache : Cache W) (engine : Engine W) (width : W) : Prop where
  absent : cache.indent? engine width = none
  tooWide : engine.indent? width = none

theorem Refuses.makeIndent? (refuses : cache.Refuses engine width) :
    cache.makeIndent? engine width = none := by
  simp [Cache.makeIndent?, refuses.absent, refuses.tooWide]

theorem makeIndent?_of_not_refuses (possible : ¬cache.Refuses engine width) :
    cache.makeIndent? engine width = some (cache.indent engine width) := by
  cases absent : cache.indent? engine width with
  | some text => simp [Cache.makeIndent?, absent]
  | none =>
      cases tooWide : engine.indent? width with
      | some text => simp [Cache.makeIndent?, tooWide]
      | none => exact absurd ⟨absent, tooWide⟩ possible

/-- `StopsAt engine query cache width reached`: on the way from a cache, with the answers of the
engine, the computation asks for an indent of some width, and the cache reached by then refuses it.
Nothing that it asks for before is refused. -/
inductive StopsAt (engine : Engine W) : Query W α → Cache W → W → Cache W → Prop where
  | here {width : W} {resume : List Char → Query W α} {cache : Cache W}
      (refused : cache.Refuses engine width) :
      StopsAt engine (.indent width resume) cache width cache
  | afterMeasure {text : List Char} {resume : W → Query W α} {cache reached : Cache W} {width : W}
      (later : StopsAt engine (resume (cache.measure engine text).1)
        (cache.measure engine text).2 width reached) :
      StopsAt engine (.measure text resume) cache width reached
  | afterIndent {asked : W} {resume : List Char → Query W α} {cache reached : Cache W} {width : W}
      (possible : ¬cache.Refuses engine asked)
      (later : StopsAt engine (resume (cache.indent engine asked).1)
        (cache.indent engine asked).2 width reached) :
      StopsAt engine (.indent asked resume) cache width reached

/-- Either a computation has the result that the engine would give if it could make every indent,
or it stops and has none. -/
theorem answer?_cases (engine : Engine W) (query : Query W α) (cache : Cache W) :
    cache.answer? engine query = some (cache.answer engine query) ∨
      cache.answer? engine query = none ∧
        ∃ width reached, StopsAt engine query cache width reached := by
  induction query generalizing cache with
  | pure result => exact .inl rfl
  | measure text resume ih =>
      rcases ih _ (cache.measure engine text).2 with same | ⟨noResult, width, reached, later⟩
      · exact .inl same
      · exact .inr ⟨noResult, width, reached, .afterMeasure later⟩
  | indent asked resume ih =>
      by_cases refused : cache.Refuses engine asked
      · rw [answer?, refused.makeIndent?]
        exact .inr ⟨rfl, asked, cache, .here refused⟩
      · rw [answer?, makeIndent?_of_not_refuses refused, Option.bind_eq_bind, Option.bind_some]
        rcases ih _ (cache.indent engine asked).2 with same | ⟨noResult, width, reached, later⟩
        · exact .inl same
        · exact .inr ⟨noResult, width, reached, .afterIndent refused later⟩

namespace StopsAt

theorem answer? (stops : StopsAt engine query cache width reached) :
    cache.answer? engine query = none := by
  induction stops with
  | here refused => rw [Cache.answer?, refused.makeIndent?]; rfl
  | afterMeasure later ih => exact ih
  | afterIndent possible later ih => rwa [Cache.answer?, makeIndent?_of_not_refuses possible]

/-- A computation stops at one place only. -/
theorem unique {width' : W} {reached' : Cache W}
    (stops : StopsAt engine query cache width reached)
    (other : StopsAt engine query cache width' reached') :
    width = width' ∧ reached = reached' := by
  induction stops with
  | here refused =>
      cases other with
      | here => exact ⟨rfl, rfl⟩
      | afterIndent possible => exact absurd refused possible
  | afterMeasure later ih =>
      cases other with
      | afterMeasure otherLater => exact ih otherLater
  | afterIndent possible later ih =>
      cases other with
      | here refused => exact absurd refused possible
      | afterIndent _ otherLater => exact ih otherLater

theorem refuses (stops : StopsAt engine query cache width reached) :
    reached.Refuses engine width := by
  induction stops with
  | here refused => exact refused
  | afterMeasure later ih => exact ih
  | afterIndent possible later ih => exact ih

/-- Up to its stop a computation adds to the cache what its questions add. -/
theorem growsUnder (stops : StopsAt engine query cache width reached) :
    cache.GrowsUnder engine reached := by
  induction stops with
  | here refused => exact .refl engine _
  | afterMeasure later ih => exact (growsUnder_measure engine _ _).trans ih
  | afterIndent possible later ih => exact (growsUnder_indent engine _ _).trans ih

end StopsAt

/-- A computation has no result exactly if it stops somewhere. -/
theorem answer?_eq_none_iff :
    cache.answer? engine query = none ↔
      ∃ width reached, StopsAt engine query cache width reached := by
  refine ⟨fun noResult => ?_, fun ⟨_, _, stops⟩ => stops.answer?⟩
  rcases answer?_cases engine query cache with found | ⟨-, stops⟩
  · exact absurd (noResult.symm.trans found) nofun
  · exact stops

end Cache

end MessageBlocks
