import MessageBlocks.Proofs.Layout.Transparency

/-!
# Growth of the layout cache

Nothing is assumed of what stands in a cache: its entries may have been written by hand, under any
keys. An engine that answers through the cache leaves all of them as they are. It only adds entries
for what the cache did not know, under its own key and with the values that it computes. Since a
computation asks one question after the other, it is enough that each answer adds in this way.
-/

namespace MessageBlocks

namespace Cache

section Entries

variable {κ β : Type} [DecidableEq κ] {computed : κ → β → Prop} {old middle new : List (κ × β)}

/-- Entries to which some have been added: what was there has kept its value, and what was not there
has a value that is computed for its key. -/
structure OnlyAdds (computed : κ → β → Prop) (old new : List (κ × β)) : Prop where
  kept : ∀ key value, Keyed.find? key old = some value → Keyed.find? key new = some value
  added : ∀ key value, Keyed.find? key old = none → Keyed.find? key new = some value →
    computed key value

theorem OnlyAdds.refl (computed : κ → β → Prop) (entries : List (κ × β)) :
    OnlyAdds computed entries entries where
  kept _ _ found := found
  added key value absent found := by
    rw [absent] at found
    cases found

theorem OnlyAdds.trans (first : OnlyAdds computed old middle)
    (second : OnlyAdds computed middle new) : OnlyAdds computed old new where
  kept key value found := second.kept key value (first.kept key value found)
  added key value absent found := by
    cases between : Keyed.find? key middle with
    | none => exact second.added key value between found
    | some earlier =>
        have computedEarlier := first.added key earlier absent between
        have same := second.kept key earlier between
        rw [found] at same
        exact Option.some.inj same ▸ computedEarlier

/-- A value may be remembered for a key that had none. -/
theorem OnlyAdds.remember {key : κ} {value : β} (absent : Keyed.find? key old = none)
    (isComputed : computed key value) : OnlyAdds computed old (Cache.remember key value old) where
  kept wanted expected found := by
    have different : wanted ≠ key := by
      rintro rfl
      rw [absent] at found
      cases found
    rw [find?_remember, if_neg different, found]
  added wanted other missing found := by
    rw [find?_remember] at found
    split at found
    · next same =>
        rw [same, ← Option.some.inj found]
        exact isComputed
    · rw [missing] at found
      cases found

end Entries

variable {W α : Type} [Width W] [Profile W] [DecidableEq W] {engine : Engine W}
  {cache middle later : Cache W}

/-- `cache.GrowsUnder engine later`: all entries of the cache are in the later one, and the others
there are widths and indents that the engine has computed, under its key and for widths above zero
only. -/
structure GrowsUnder (engine : Engine W) (cache later : Cache W) : Prop where
  widths : OnlyAdds (fun key width => key.1 = Profile.ofEngine engine ∧
    width = engine.measure key.2) cache.widths later.widths
  indents : OnlyAdds (fun key text => key.1 = Profile.ofEngine engine ∧
    text = engine.indent key.2 ∧ Width.below Width.zero key.2 = true) cache.indents later.indents

theorem GrowsUnder.refl (engine : Engine W) (cache : Cache W) : cache.GrowsUnder engine cache where
  widths := .refl _ _
  indents := .refl _ _

theorem GrowsUnder.trans (first : cache.GrowsUnder engine middle)
    (second : middle.GrowsUnder engine later) : cache.GrowsUnder engine later where
  widths := first.widths.trans second.widths
  indents := first.indents.trans second.indents

theorem growsUnder_measure (engine : Engine W) (text : List Char) (cache : Cache W) :
    cache.GrowsUnder engine (cache.measure engine text).2 := by
  unfold Cache.measure
  split
  · exact .refl engine cache
  · next absent =>
      exact ⟨.remember absent ⟨rfl, rfl⟩, .refl _ _⟩

theorem growsUnder_indent (engine : Engine W) (width : W) (cache : Cache W) :
    cache.GrowsUnder engine (cache.indent engine width).2 := by
  unfold Cache.indent
  split
  · next above =>
      split
      · exact .refl engine cache
      · next absent =>
          exact ⟨.refl _ _, .remember absent ⟨rfl, rfl, above⟩⟩
  · exact .refl engine cache

/-- A whole computation adds to the cache what each of its questions adds. Each of them is
answered from another cache, so the induction runs over all caches. -/
theorem growsUnder_answer (engine : Engine W) (query : Query W α) (cache : Cache W) :
    cache.GrowsUnder engine (cache.answer engine query).2 := by
  induction query generalizing cache with
  | pure result => exact .refl engine cache
  | measure text resume ih => exact (growsUnder_measure engine text cache).trans (ih _ _)
  | indent width resume ih => exact (growsUnder_indent engine width cache).trans (ih _ _)

end Cache

namespace LayoutCall

variable {W : Type} [Width W] [Profile W] [DecidableEq W]

/-- A call on an engine leaves every entry of the cache as it is, whatever the cache holds. The
entries that it adds stand under the key of its engine. They are widths of texts as the engine
measures them without a cache, and indents as it composes them for widths above zero. -/
theorem growsUnder_run {engine : Engine W} (call : LayoutCall W)
    (onEngine : call.engine? = some engine) (cache : Cache W) :
    cache.GrowsUnder engine (call.run cache).2 := by
  cases call with
  | measure caller text =>
      obtain rfl := Option.some.inj onEngine
      exact Cache.growsUnder_measure caller text cache
  | indent caller width =>
      obtain rfl := Option.some.inj onEngine
      exact Cache.growsUnder_indent caller width cache
  | markup caller nodes =>
      obtain rfl := Option.some.inj onEngine
      exact Cache.growsUnder_answer caller (Markup.render nodes) cache
  | tree caller root =>
      obtain rfl := Option.some.inj onEngine
      exact Cache.growsUnder_answer caller root.render cache
  | clear => cases onEngine

/-- A cache with entries that no engine has computed: a width and an indent of the engine over the
reference metrics, and a width of the engine with the wide fallback. -/
def handwrittenCache : Cache Float :=
  ((Cache.empty.storeWidth .reference ['•'] 7.0).storeIndent .reference 60.0 ['x']).storeWidth
    wideEngine [' '] 5.0

/-- A list with an item over two lines. -/
def brokenItem : Markup :=
  .list .unordered [⟨none, [.text "one", .lineBreak, .text "two"]⟩]

/-- Rendering the list adds the width of a space and the indent of the second line. The marker
keeps the width that was written for it, and so does everything else. -/
theorem brokenItem_growsUnder :
    (markup Engine.reference [brokenItem]).engine? = some Engine.reference ∧
      handwrittenCache.GrowsUnder .reference
        ((markup Engine.reference [brokenItem]).run handwrittenCache).2 ∧
      ((markup Engine.reference [brokenItem]).run handwrittenCache).2.widths.length = 3 ∧
      ((markup Engine.reference [brokenItem]).run handwrittenCache).2.indents.length = 2 :=
  ⟨rfl, growsUnder_run (markup Engine.reference [brokenItem]) rfl handwrittenCache,
    by decide +kernel, by decide +kernel⟩

end LayoutCall

end MessageBlocks
