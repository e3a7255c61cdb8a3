import MessageBlocks.Proofs.Layout.Indents
import MessageBlocks.Proofs.Layout.Transparency
import MessageBlocks.Proofs.Text.Selection
import Mathlib.Data.List.Forall2

/-!
# Two layouts of one query

Two engines with caches of their own answer a query with different widths and indents. A
leeway says what they may differ in. Two queries are alike if they ask for the same texts and
go on alike whatever they are told within the leeway, so what they end in is alike for any two
engines and caches.
-/

namespace MessageBlocks

/-- What two layouts may differ in: the characters that indents are made of, and whether
anything may be indented at all. -/
structure Leeway where
  indents : Char → Bool
  widths : Prop

namespace Leeway

variable {leeway : Leeway} {text first second lead firstIndent secondIndent : List Char}

/-- The characters of a text that do not belong to indents. -/
def strip (leeway : Leeway) (text : List Char) : List Char :=
  text.filter (!leeway.indents ·)

def IsIndent (leeway : Leeway) (text : List Char) : Prop :=
  ∀ character ∈ text, leeway.indents character = true

/-- Two texts that differ in nothing but indents. Neither is empty by itself. -/
structure SameText (leeway : Leeway) (first second : List Char) : Prop where
  strip : leeway.strip first = leeway.strip second
  empty : first = [] ↔ second = []

/-- Two widths that may both be anything, or else are both zero. -/
def SameWidth {W : Type} [Width W] (leeway : Leeway) (first second : W) : Prop :=
  leeway.widths ∨ first = Width.zero ∧ second = Width.zero

theorem strip_append (leeway : Leeway) (first second : List Char) :
    leeway.strip (first ++ second) = leeway.strip first ++ leeway.strip second :=
  List.filter_append ..

theorem IsIndent.strip_eq_nil (isIndent : leeway.IsIndent text) : leeway.strip text = [] := by
  rw [strip, List.filter_eq_nil_iff]
  intro character member
  simp [isIndent character member]

theorem SameText.refl (leeway : Leeway) (text : List Char) : leeway.SameText text text :=
  ⟨rfl, Iff.rfl⟩

theorem SameText.append_left (same : leeway.SameText first second) (lead : List Char) :
    leeway.SameText (lead ++ first) (lead ++ second) where
  strip := by rw [strip_append, strip_append, same.strip]
  empty := by rw [List.append_eq_nil_iff, List.append_eq_nil_iff, same.empty]

theorem SameText.isEmpty_eq (same : leeway.SameText first second) :
    first.isEmpty = second.isEmpty := by
  rw [Bool.eq_iff_iff, List.isEmpty_iff, List.isEmpty_iff]
  exact same.empty

/-- Texts stay alike behind different indents if they are not empty. -/
theorem SameText.indented (same : leeway.SameText first second) (visible : first ≠ [])
    (firstIsIndent : leeway.IsIndent firstIndent) (secondIsIndent : leeway.IsIndent secondIndent) :
    leeway.SameText (firstIndent ++ first) (secondIndent ++ second) where
  strip := by
    rw [strip_append, strip_append, firstIsIndent.strip_eq_nil, secondIsIndent.strip_eq_nil,
      same.strip]
  empty := by
    have otherVisible : second ≠ [] := fun isEmpty => visible (same.empty.2 isEmpty)
    simp [visible, otherVisible]

theorem SameText.unlines {rows others : List (List Char)}
    (same : List.Forall₂ leeway.SameText rows others) :
    leeway.SameText (Text.unlines rows) (Text.unlines others) := by
  induction same with
  | nil => exact .refl leeway []
  | @cons row other rows others first rest ih =>
      cases rest with
      | nil => simpa [Text.unlines] using first
      | cons =>
          rw [Text.unlines_cons_cons, Text.unlines_cons_cons]
          refine ⟨?_, by simp⟩
          have further := (ih.append_left ['\n']).strip
          rw [strip_append, strip_append, first.strip]
          exact congrArg _ further

end Leeway

variable {W α β γ δ : Type} [Width W]

namespace Query

variable {leeway : Leeway} {related : α → β → Prop} {query : Query W α} {other : Query W β}

/-- `Alike leeway related query other`: the queries ask for the widths of the same texts and for
indents of widths that the leeway allows, and whatever they are told, they end in related
results. -/
inductive Alike (leeway : Leeway) (related : α → β → Prop) : Query W α → Query W β → Prop where
  | pure {result : α} {otherResult : β} (same : related result otherResult) :
      Alike leeway related (.pure result) (.pure otherResult)
  | measure (allowed : leeway.widths) (text : List Char) {resume : W → Query W α}
      {otherResume : W → Query W β}
      (next : ∀ width otherWidth, Alike leeway related (resume width) (otherResume otherWidth)) :
      Alike leeway related (.measure text resume) (.measure text otherResume)
  | indent {width otherWidth : W} (allowed : leeway.SameWidth width otherWidth)
      {resume : List Char → Query W α} {otherResume : List Char → Query W β}
      (next : ∀ text otherText, leeway.IsIndent text → leeway.IsIndent otherText →
        Alike leeway related (resume text) (otherResume otherText)) :
      Alike leeway related (.indent width resume) (.indent otherWidth otherResume)

namespace Alike

theorem done {result : α} {otherResult : β} (same : related result otherResult) :
    Alike leeway related (Pure.pure result : Query W α) (Pure.pure otherResult) :=
  .pure same

theorem width (allowed : leeway.widths) (text : List Char) :
    Alike leeway (fun _ _ => True) (Query.width text : Query W W) (Query.width text) :=
  .measure allowed text fun _ _ => .pure trivial

theorem indentOf {width otherWidth : W} (allowed : leeway.SameWidth width otherWidth) :
    Alike leeway (fun text otherText => leeway.IsIndent text ∧ leeway.IsIndent otherText)
      (Query.indentOf width) (Query.indentOf otherWidth) :=
  .indent allowed fun _ _ isIndent otherIsIndent => .pure ⟨isIndent, otherIsIndent⟩

theorem bind {relatedNext : γ → δ → Prop} {next : α → Query W γ} {otherNext : β → Query W δ}
    (alike : Alike leeway related query other)
    (following : ∀ result otherResult, related result otherResult →
      Alike leeway relatedNext (next result) (otherNext otherResult)) :
    Alike leeway relatedNext (query >>= next) (other >>= otherNext) := by
  induction alike with
  | pure same => exact following _ _ same
  | measure allowed text _ ih => exact .measure allowed text ih
  | indent allowed _ ih => exact .indent allowed ih

theorem map {relatedNext : γ → δ → Prop} {convert : α → γ} {otherConvert : β → δ}
    (alike : Alike leeway related query other)
    (following : ∀ result otherResult, related result otherResult →
      relatedNext (convert result) (otherConvert otherResult)) :
    Alike leeway relatedNext (convert <$> query) (otherConvert <$> other) :=
  alike.bind fun result otherResult same => .pure (following result otherResult same)

theorem mapM {related : β → β → Prop} {step : α → Query W β} {items : List α}
    (alike : ∀ item ∈ items, Alike leeway related (step item) (step item)) :
    Alike leeway (List.Forall₂ related) (items.mapM step) (items.mapM step) := by
  induction items with
  | nil => exact .pure .nil
  | cons item rest ih =>
      obtain ⟨first, others⟩ := List.forall_mem_cons.1 alike
      rw [List.mapM_cons]
      refine first.bind fun result otherResult same => ?_
      exact (ih others).bind fun results otherResults sameRest => .pure (.cons same sameRest)

end Alike

end Query

namespace Cache

variable [Profile W] [DecidableEq W] {leeway : Leeway} {engine first second : Engine W}
  {cache firstCache secondCache : Cache W}

/-- Every indent that the engine finds in the cache or makes itself is one within the leeway. -/
structure Covers (leeway : Leeway) (engine : Engine W) (cache : Cache W) : Prop where
  made : ∀ width, leeway.IsIndent (engine.indent width)
  found : ∀ width text, cache.indent? engine width = some text → leeway.IsIndent text

theorem Covers.measure (covers : Covers leeway engine cache) (text : List Char) :
    Covers leeway engine (cache.measure engine text).2 := by
  rw [Cache.measure]
  split
  · exact covers
  · exact ⟨covers.made, covers.found⟩

/-- Asking for an indent gives one within the leeway, and what is remembered is one too. -/
theorem Covers.indent (covers : Covers leeway engine cache) (width : W) :
    leeway.IsIndent (cache.indent engine width).1 ∧
      Covers leeway engine (cache.indent engine width).2 := by
  rw [Cache.indent]
  split
  · split
    · next text found => exact ⟨covers.found width text found, covers⟩
    · refine ⟨covers.made width, covers.made, ?_⟩
      intro asked text found
      rw [indent?, storeIndent, find?_remember] at found
      split at found
      · rw [← Option.some.inj found]
        exact covers.made width
      · exact covers.found asked text found
  · exact ⟨List.forall_mem_nil _, covers⟩

/-- No indent is asked for at the margin. -/
theorem indent_zero (margin : Width.below (Width.zero : W) Width.zero = false)
    (engine : Engine W) (cache : Cache W) : cache.indent engine Width.zero = ([], cache) := by
  simp [Cache.indent, margin]

end Cache

namespace Query.Alike

variable [Profile W] [DecidableEq W] {leeway : Leeway} {related : α → β → Prop}
  {query : Query W α} {other : Query W β} {first second : Engine W}

/-- Alike queries end in related results, whatever the engines and the caches are. The caches
change with every question, so the induction runs over all of them. -/
theorem answer (alike : Alike leeway related query other)
    (margin : Width.below (Width.zero : W) Width.zero = false) {firstCache secondCache : Cache W}
    (firstCovers : leeway.widths → firstCache.Covers leeway first)
    (secondCovers : leeway.widths → secondCache.Covers leeway second) :
    related (firstCache.answer first query).1 (secondCache.answer second other).1 := by
  induction alike generalizing firstCache secondCache with
  | pure same => exact same
  | measure allowed text _ ih =>
      have firstAfter := (firstCovers allowed).measure text
      have secondAfter := (secondCovers allowed).measure text
      exact ih _ _ (fun _ => firstAfter) (fun _ => secondAfter)
  | @indent width otherWidth allowed _ _ _ ih =>
      rcases allowed with free | ⟨rfl, rfl⟩
      · obtain ⟨isIndent, firstAfter⟩ := (firstCovers free).indent width
        obtain ⟨otherIsIndent, secondAfter⟩ := (secondCovers free).indent otherWidth
        exact ih _ _ isIndent otherIsIndent (fun _ => firstAfter) (fun _ => secondAfter)
      · have empty : leeway.IsIndent [] := List.forall_mem_nil _
        simp only [Cache.answer, Cache.indent_zero margin]
        exact ih [] [] empty empty firstCovers secondCovers

/-- A query that may not depend on widths leaves the cache alone. -/
theorem cache_eq (alike : Alike leeway related query other)
    (margin : Width.below (Width.zero : W) Width.zero = false) (fixed : ¬ leeway.widths)
    (engine : Engine W) (cache : Cache W) : (cache.answer engine query).2 = cache := by
  induction alike with
  | pure same => rfl
  | measure allowed => exact absurd allowed fixed
  | indent allowed _ ih =>
      rcases allowed with free | ⟨rfl, -⟩
      · exact absurd free fixed
      · have empty : leeway.IsIndent [] := List.forall_mem_nil _
        simp only [Cache.answer, Cache.indent_zero margin]
        exact ih [] [] empty empty

end Query.Alike

end MessageBlocks
