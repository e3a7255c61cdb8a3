import MessageBlocks.Compile.Render
import MessageBlocks.Layout.Reference

/-!
# Transparency of the layout cache

Engines of any metrics and fallbacks may share one cache, and calls on them may
be interleaved in any order with clearing it. A cache is sound for a set of
engines when everything that one of them finds in it is what that engine would
compute. Every call keeps a sound cache sound, so no answer shows that there is
a cache at all. This needs only that engines in use which differ have
different keys.
-/

namespace MessageBlocks

variable {W α : Type} [Width W]

/-- A call on one of the engines that share a cache, or a call that clears it.
Markup is rendered as it is, a tree after it has been checked. -/
inductive LayoutCall (W : Type) where
  | measure (engine : Engine W) (text : List Char)
  | indent (engine : Engine W) (width : W)
  | markup (engine : Engine W) (nodes : List Markup)
  | tree (engine : Engine W) (root : Element)
  | clear

inductive LayoutAnswer (W : Type) where
  | width (width : W)
  | text (text : List Char)
  | rendering (rendering : Rendering)
  | done

namespace LayoutCall

omit [Width W] in
def engine? : LayoutCall W → Option (Engine W)
  | measure engine _ | indent engine _ | markup engine _ | tree engine _ => some engine
  | clear => none

def direct : LayoutCall W → LayoutAnswer W
  | measure engine text => .width (engine.measure text)
  | indent engine width => .text (engine.indent width)
  | markup engine nodes => .text ((Markup.render nodes).answer engine)
  | tree engine root => .rendering (root.render.answer engine)
  | clear => .done

variable [Profile W] [DecidableEq W]

/-- The answer of a call through a cache, and the cache after it. -/
def run (cache : Cache W) : LayoutCall W → LayoutAnswer W × Cache W
  | measure engine text =>
      let (width, cache) := cache.measure engine text
      (.width width, cache)
  | indent engine width =>
      let (text, cache) := cache.indent engine width
      (.text text, cache)
  | markup engine nodes =>
      let (text, cache) := cache.answer engine (Markup.render nodes)
      (.text text, cache)
  | tree engine root =>
      let (rendering, cache) := cache.answer engine root.render
      (.rendering rendering, cache)
  | clear => (.done, .empty)

def runAll (cache : Cache W) : List (LayoutCall W) → List (LayoutAnswer W)
  | [] => []
  | call :: rest =>
      let (answer, cache) := run cache call
      answer :: runAll cache rest

end LayoutCall

namespace Cache

section Lookup

variable {κ β : Type} [DecidableEq κ]

theorem find?_filter_ne (key wanted : κ) (entries : List (κ × β)) (different : wanted ≠ key) :
    Keyed.find? wanted (entries.filter (·.1 ≠ key)) = Keyed.find? wanted entries := by
  induction entries with
  | nil => rfl
  | cons entry rest ih =>
      by_cases dropped : entry.1 = key
      · have passedOver : wanted ≠ entry.1 := dropped ▸ different
        rw [List.filter_cons_of_neg (by simpa using dropped), ih, Keyed.find?, if_neg passedOver]
      · rw [List.filter_cons_of_pos (by simpa using dropped), Keyed.find?, Keyed.find?, ih]

/-- Remembering a value changes the value of its key and no other. -/
theorem find?_remember (key wanted : κ) (value : β) (entries : List (κ × β)) :
    Keyed.find? wanted (remember key value entries) =
      if wanted = key then some value else Keyed.find? wanted entries := by
  by_cases same : wanted = key
  · simp [remember, Keyed.find?, same]
  · simpa [remember, Keyed.find?, same] using find?_filter_ne key wanted entries same

end Lookup

variable [Profile W] [DecidableEq W] {engines : Engine W → Prop} {cache : Cache W}

/-- Different engines among those in use have different keys. -/
def Distinct (engines : Engine W → Prop) : Prop :=
  ∀ first second, engines first → engines second →
    (Profile.ofEngine first : Profile.Key W) = Profile.ofEngine second → first = second

omit [Width W] [DecidableEq W] in
/-- A single engine is told apart from all others in use, since there are none. -/
theorem distinct_eq (engine : Engine W) : Distinct (· = engine) := by
  rintro first second rfl rfl -
  rfl

/-- Whatever one of the engines finds in the cache is what it would compute itself. -/
structure Sound (engines : Engine W → Prop) (cache : Cache W) : Prop where
  widths : ∀ engine, engines engine → ∀ text width,
    cache.width? engine text = some width → width = engine.measure text
  indents : ∀ engine, engines engine → ∀ width text,
    cache.indent? engine width = some text → text = engine.indent width

theorem Sound.empty : Sound engines (empty : Cache W) where
  widths _ _ _ _ found := nomatch found
  indents _ _ _ _ found := nomatch found

theorem Sound.storeWidth (sound : Sound engines cache) (distinct : Distinct engines)
    {engine : Engine W} (used : engines engine) (text : List Char) :
    Sound engines (cache.storeWidth engine text (engine.measure text)) where
  widths reader readerUsed read width found := by
    rw [width?, Cache.storeWidth, find?_remember] at found
    split at found
    · next sameKey =>
        obtain ⟨sameProfile, rfl⟩ := Prod.mk.inj sameKey
        rw [distinct reader engine readerUsed used sameProfile]
        exact (Option.some.inj found).symm
    · exact sound.widths reader readerUsed read width found
  indents := sound.indents

theorem Sound.storeIndent (sound : Sound engines cache) (distinct : Distinct engines)
    {engine : Engine W} (used : engines engine) (width : W) :
    Sound engines (cache.storeIndent engine width (engine.indent width)) where
  widths := sound.widths
  indents reader readerUsed read text found := by
    rw [indent?, Cache.storeIndent, find?_remember] at found
    split at found
    · next sameKey =>
        obtain ⟨sameProfile, rfl⟩ := Prod.mk.inj sameKey
        rw [distinct reader engine readerUsed used sameProfile]
        exact (Option.some.inj found).symm
    · exact sound.indents reader readerUsed read text found

/-- A step of a computation gives what it gives without a cache, and the cache stays
sound. -/
def Transparent (engines : Engine W → Prop) (expected : α) (result : α × Cache W) : Prop :=
  result.1 = expected ∧ Sound engines result.2

theorem transparent_measure (sound : Sound engines cache) (distinct : Distinct engines)
    {engine : Engine W} (used : engines engine) (text : List Char) :
    Transparent engines (engine.measure text) (cache.measure engine text) := by
  unfold Cache.measure
  split
  · next width found => exact ⟨sound.widths engine used text width found, sound⟩
  · exact ⟨rfl, sound.storeWidth distinct used text⟩

/-- Indents of widths that are not above zero are empty with and without a cache. -/
theorem transparent_indent (sound : Sound engines cache) (distinct : Distinct engines)
    {engine : Engine W} (used : engines engine) (width : W) :
    Transparent engines (engine.indent width) (cache.indent engine width) := by
  unfold Cache.indent
  split
  · split
    · next text found => exact ⟨sound.indents engine used width text found, sound⟩
    · exact ⟨rfl, sound.storeIndent distinct used width⟩
  · next notAbove => exact ⟨by simp [Engine.indent, Engine.composition, notAbove], sound⟩

/-- A whole computation is answered through a sound cache as it is without one. The
cache changes with every question, so the induction runs over all caches. -/
theorem transparent_answer (distinct : Distinct engines) {engine : Engine W}
    (used : engines engine) (query : Query W α) (sound : Sound engines cache) :
    Transparent engines (query.answer engine) (cache.answer engine query) := by
  induction query generalizing cache with
  | pure result => exact ⟨rfl, sound⟩
  | measure text resume ih =>
      obtain ⟨same, stillSound⟩ := transparent_measure sound distinct used text
      have rest := ih (cache.measure engine text).1 stillSound
      rw [same] at rest
      simpa only [Cache.answer, Query.answer, same] using rest
  | indent width resume ih =>
      obtain ⟨same, stillSound⟩ := transparent_indent sound distinct used width
      have rest := ih (cache.indent engine width).1 stillSound
      rw [same] at rest
      simpa only [Cache.answer, Query.answer, same] using rest

end Cache

namespace LayoutCall

variable [Profile W] [DecidableEq W] {engines : Engine W → Prop}

open Cache

theorem transparent_run (distinct : Distinct engines) (call : LayoutCall W)
    (used : ∀ engine, call.engine? = some engine → engines engine) {cache : Cache W}
    (sound : Sound engines cache) : Transparent engines call.direct (call.run cache) := by
  cases call with
  | measure engine text =>
      obtain ⟨same, stillSound⟩ := transparent_measure sound distinct (used engine rfl) text
      exact ⟨congrArg LayoutAnswer.width same, stillSound⟩
  | indent engine width =>
      obtain ⟨same, stillSound⟩ := transparent_indent sound distinct (used engine rfl) width
      exact ⟨congrArg LayoutAnswer.text same, stillSound⟩
  | markup engine nodes =>
      obtain ⟨same, stillSound⟩ :=
        transparent_answer distinct (used engine rfl) (Markup.render nodes) sound
      exact ⟨congrArg LayoutAnswer.text same, stillSound⟩
  | tree engine root =>
      obtain ⟨same, stillSound⟩ :=
        transparent_answer distinct (used engine rfl) root.render sound
      exact ⟨congrArg LayoutAnswer.rendering same, stillSound⟩
  | clear => exact ⟨rfl, Sound.empty⟩

theorem runAll_eq_direct (distinct : Distinct engines) (calls : List (LayoutCall W))
    (used : ∀ call ∈ calls, ∀ engine, call.engine? = some engine → engines engine)
    {cache : Cache W} (sound : Sound engines cache) :
    runAll cache calls = calls.map direct := by
  induction calls generalizing cache with
  | nil => rfl
  | cons call rest ih =>
      obtain ⟨same, stillSound⟩ :=
        transparent_run distinct call (used call List.mem_cons_self) sound
      have following := ih (fun other member => used other (List.mem_cons_of_mem _ member))
        stillSound
      rw [List.map_cons, ← same, ← following]
      rfl

/-- However calls on engines that share a cache are interleaved, and whenever it is
cleared, every call answers as if there were no cache. -/
theorem answers_eq_direct (calls : List (LayoutCall W))
    (distinct : ∀ first ∈ calls.filterMap engine?, ∀ second ∈ calls.filterMap engine?,
      (Profile.ofEngine first : Profile.Key W) = Profile.ofEngine second → first = second) :
    runAll (Cache.empty : Cache W) calls = calls.map direct := by
  have apart : Distinct (· ∈ calls.filterMap engine?) :=
    fun first second firstUsed secondUsed => distinct first firstUsed second secondUsed
  exact runAll_eq_direct apart calls
    (fun call member engine found => List.mem_filterMap.2 ⟨call, member, found⟩) Sound.empty

/-- The profile of engines over the same metrics, which differ in nothing but their
fallbacks. -/
abbrev fallbackProfile : Profile Float where
  Key := UInt64
  keyEq := inferInstance
  ofEngine engine := engine.fallback.toBits

/-- The engine over the reference metrics with a wide fallback. -/
def wideEngine : Engine Float :=
  { Engine.reference with fallback := 40.0 }

/-- Calls on two engines, each of which asks again for what the other has asked. -/
def interleaved : List (LayoutCall Float) :=
  [.measure .reference ['a', '#'], .measure wideEngine ['a', '#'],
    .indent wideEngine 60.0, .indent .reference 60.0, .measure .reference ['a', '#'],
    .markup wideEngine [.text "a"], .clear, .tree .reference (.ofKind "Blocks"),
    .measure wideEngine ['#']]

/-- The answers to these calls show no cache. -/
theorem interleaved_eq_direct :
    @runAll Float _ fallbackProfile _ (@Cache.empty Float fallbackProfile) interleaved =
      interleaved.map direct := by
  have apart : Engine.reference.fallback.toBits ≠ wideEngine.fallback.toBits := by decide
  have onlyTwo : ∀ engine ∈ interleaved.filterMap engine?,
      engine = Engine.reference ∨ engine = wideEngine := by
    intro engine used
    simp only [interleaved, engine?, List.filterMap_cons, List.filterMap_nil, List.mem_cons,
      List.not_mem_nil, or_false] at used
    grind
  refine @answers_eq_direct Float _ fallbackProfile _ interleaved ?_
  intro first firstUsed second secondUsed same
  rcases onlyTwo first firstUsed with rfl | rfl <;>
    rcases onlyTwo second secondUsed with rfl | rfl
  · rfl
  · exact absurd same apart
  · exact absurd same.symm apart
  · rfl

end LayoutCall

end MessageBlocks
