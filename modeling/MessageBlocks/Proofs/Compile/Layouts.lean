import MessageBlocks.Proofs.Compile.Aliases
import MessageBlocks.Proofs.Compile.Leeway

/-!
# Layouts differ in indents

An accepted tree is rendered by two engines, each through a cache of its own. Both payloads have
one shape, and they are the same without the characters of space glyphs. If the tree has no
lists they are the same as they are, and neither cache has changed.
-/

namespace MessageBlocks

namespace Json

/-- A value with all its strings emptied. -/
def shape (value : Json) : Json :=
  value.mapStrings fun _ => ""

/-- A value without the characters of a class in its strings. -/
def without (dropped : Char → Bool) (value : Json) : Json :=
  value.mapStrings fun text => String.ofList (text.toList.filter (!dropped ·))

mutual

theorem mapStrings_id : ∀ value : Json, value.mapStrings id = value
  | .string text => by rw [mapStrings, id]
  | .array items => by rw [mapStrings, mapItems_id items]
  | .object members => by rw [mapStrings, mapMembers_id members]
  | .null | .bool _ | .integer _ | .float _ | .unreadable => by rw [mapStrings] <;> nofun

theorem mapItems_id : ∀ items : List Json, mapItems id items = items
  | [] => rfl
  | item :: rest => by rw [mapItems, mapStrings_id item, mapItems_id rest]

theorem mapMembers_id : ∀ members : List (String × Json), mapMembers id members = members
  | [] => rfl
  | (name, value) :: rest => by rw [mapMembers, mapStrings_id value, mapMembers_id rest]

end

end Json

variable {W : Type} [Width W]

namespace Engine

/-- Whether a character occurs in a space glyph of the engine. -/
def isGlyph (engine : Engine W) (character : Char) : Bool :=
  engine.glyphs.any fun glyph => glyph.text.toList.contains character

theorem isGlyph_of_mem_indent {engine : Engine W} {width : W} {character : Char}
    (member : character ∈ engine.indent width) : engine.isGlyph character = true := by
  obtain ⟨glyph, inTable, inGlyph⟩ := exists_glyph_of_mem_indent member
  exact List.any_eq_true.2 ⟨glyph, inTable, List.contains_iff_mem.2 inGlyph⟩

/-- Whether a character occurs in a space glyph of one of two engines. -/
def isGlyphOfEither (first second : Engine W) (character : Char) : Bool :=
  first.isGlyph character || second.isGlyph character

theorem isGlyphOfEither_of_first {first second : Engine W} {character : Char}
    (isGlyph : first.isGlyph character = true) :
    first.isGlyphOfEither second character = true := by
  rw [isGlyphOfEither, isGlyph, Bool.true_or]

theorem isGlyphOfEither_of_second {first second : Engine W} {character : Char}
    (isGlyph : second.isGlyph character = true) :
    first.isGlyphOfEither second character = true := by
  rw [isGlyphOfEither, isGlyph, Bool.or_true]

end Engine

namespace Leeway

/-- Nothing is looked at but the shape. -/
def shapeOnly : Leeway :=
  ⟨fun _ => true, True⟩

/-- Indents of a class of characters. -/
def ofClass (glyphs : Char → Bool) : Leeway :=
  ⟨glyphs, True⟩

/-- No difference at all. -/
def exact : Leeway :=
  ⟨fun _ => false, False⟩

theorem stripText_shapeOnly (text : String) : shapeOnly.stripText text = "" := by
  have empty : shapeOnly.strip text.toList = [] :=
    IsIndent.strip_eq_nil fun _ _ => rfl
  rw [stripText, empty]

theorem stripText_exact (text : String) : exact.stripText text = text := by
  have whole : exact.strip text.toList = text.toList := List.filter_eq_self.2 fun _ _ => rfl
  rw [stripText, whole, String.ofList_toList]

end Leeway

variable [Profile W] [DecidableEq W]

namespace Cache

variable {engines : Engine W → Prop} {engine : Engine W} {cache : Cache W}

/-- Every indent that the engine finds in the cache is made of characters of a class. -/
def IndentsOf (cache : Cache W) (engine : Engine W) (glyphs : Char → Bool) : Prop :=
  ∀ width text, cache.indent? engine width = some text →
    ∀ character ∈ text, glyphs character = true

/-- A cache in which an engine finds what it would make itself holds its own glyphs. -/
theorem Sound.indentsOf (sound : Sound engines cache) (used : engines engine)
    {glyphs : Char → Bool}
    (own : ∀ character, engine.isGlyph character = true → glyphs character = true) :
    cache.IndentsOf engine glyphs := by
  intro width text found character member
  rw [sound.indents engine used width text found] at member
  exact own character (Engine.isGlyph_of_mem_indent member)

theorem IndentsOf.covers {glyphs : Char → Bool} (indentsOf : cache.IndentsOf engine glyphs)
    (own : ∀ character, engine.isGlyph character = true → glyphs character = true) :
    cache.Covers (.ofClass glyphs) engine where
  made _ character member := own character (Engine.isGlyph_of_mem_indent member)
  found := indentsOf

end Cache

namespace LayoutCall

/-- The cache that calls leave behind. -/
def after (cache : Cache W) (calls : List (LayoutCall W)) : Cache W :=
  calls.foldl (fun cache call => (call.run cache).2) cache

/-- However calls on engines that share a cache are interleaved, each engine finds in the cache
that they leave what it would make itself. -/
theorem sound_after {engines : Engine W → Prop} (distinct : Cache.Distinct engines)
    (calls : List (LayoutCall W))
    (used : ∀ call ∈ calls, ∀ engine, call.engine? = some engine → engines engine)
    {cache : Cache W} (sound : Cache.Sound engines cache) :
    Cache.Sound engines (after cache calls) := by
  induction calls generalizing cache with
  | nil => exact sound
  | cons call rest ih =>
      obtain ⟨first, others⟩ := List.forall_mem_cons.1 used
      exact ih others (transparent_run distinct call first sound).2

end LayoutCall

namespace Element

variable {root : Element} {first second : Engine W} {firstCache secondCache : Cache W}

/-- The JSON of a render of an accepted tree, and the cache after it. -/
theorem answer_render_of_ok (accepted : root.validate = .ok ()) (engine : Engine W)
    (cache : Cache W) :
    (cache.answer engine root.render).1.json =
        .ok (cache.answer engine root.surface).1.toJson ∧
      (cache.answer engine root.render).2 = (cache.answer engine root.surface).2 := by
  rw [render_of_ok accepted, Cache.answer_map]
  exact ⟨rfl, rfl⟩

theorem toJson_shape_eq (accepted : root.validate = .ok ())
    (margin : Width.below (Width.zero : W) Width.zero = false) :
    (firstCache.answer first root.surface).1.toJson.shape =
      (secondCache.answer second root.surface).1.toJson.shape := by
  have settles : Leeway.shapeOnly.Settles root :=
    ⟨Grammatical.of_validate accepted, .inl trivial⟩
  have covers (engine : Engine W) (cache : Cache W) : cache.Covers .shapeOnly engine :=
    ⟨fun _ _ _ => rfl, fun _ _ _ _ _ => rfl⟩
  have same := (alike_surface settles).answer margin (fun _ => covers first firstCache)
    fun _ => covers second secondCache
  rwa [Leeway.SameForm, funext Leeway.stripText_shapeOnly] at same

theorem toJson_without_eq (accepted : root.validate = .ok ())
    (margin : Width.below (Width.zero : W) Width.zero = false)
    (firstGlyphs : firstCache.IndentsOf first (first.isGlyphOfEither second))
    (secondGlyphs : secondCache.IndentsOf second (first.isGlyphOfEither second)) :
    (firstCache.answer first root.surface).1.toJson.without (first.isGlyphOfEither second) =
      (secondCache.answer second root.surface).1.toJson.without
        (first.isGlyphOfEither second) := by
  have settles : (Leeway.ofClass (first.isGlyphOfEither second)).Settles root :=
    ⟨Grammatical.of_validate accepted, .inl trivial⟩
  exact (alike_surface settles).answer margin
    (fun _ => firstGlyphs.covers fun _ => Engine.isGlyphOfEither_of_first)
    fun _ => secondGlyphs.covers fun _ => Engine.isGlyphOfEither_of_second

theorem answer_surface_of_listless (accepted : root.validate = .ok ())
    (margin : Width.below (Width.zero : W) Width.zero = false) (listless : root.IsListless)
    (first second : Engine W) (firstCache secondCache : Cache W) :
    (firstCache.answer first root.surface).1.toJson =
        (secondCache.answer second root.surface).1.toJson ∧
      (firstCache.answer first root.surface).2 = firstCache := by
  have settles : Leeway.exact.Settles root := ⟨Grammatical.of_validate accepted, .inr listless⟩
  have alike := alike_surface (W := W) settles
  have same : Leeway.exact.SameForm Surface.toJson (firstCache.answer first root.surface).1
      (secondCache.answer second root.surface).1 := alike.answer margin False.elim False.elim
  have unchanged : Leeway.exact.stripText = id := funext Leeway.stripText_exact
  rw [Leeway.SameForm, unchanged, Json.mapStrings_id, Json.mapStrings_id] at same
  exact ⟨same, alike.cache_eq margin id first firstCache⟩

end Element

/-- Nothing is indented by no width. -/
theorem Width.not_below_zero : Width.below (Width.zero : Float) Width.zero = false := by
  decide

/-- Two engines, whatever their metrics, fallbacks and caches, render an accepted tree to
payloads of one shape. Without the characters of the space glyphs of both these are equal, provided
each engine finds only such characters in its cache, as it does after any calls. Without lists in
the tree they are equal as they are, and the caches stay as they were. -/
theorem Element.renders_differ_in_indents [Profile Float] {root : Element}
    (accepted : root.validate = .ok ()) (first second : Engine Float)
    (firstCache secondCache : Cache Float) :
    ∃ output other : Json,
      (firstCache.answer first root.render).1.json = .ok output ∧
      (secondCache.answer second root.render).1.json = .ok other ∧
      output.shape = other.shape ∧
      (firstCache.IndentsOf first (first.isGlyphOfEither second) →
        secondCache.IndentsOf second (first.isGlyphOfEither second) →
          output.without (first.isGlyphOfEither second) =
            other.without (first.isGlyphOfEither second)) ∧
      (root.IsListless →
        output = other ∧ (firstCache.answer first root.render).2 = firstCache ∧
          (secondCache.answer second root.render).2 = secondCache) := by
  have margin := Width.not_below_zero
  obtain ⟨firstJson, firstAfter⟩ := answer_render_of_ok accepted first firstCache
  obtain ⟨secondJson, secondAfter⟩ := answer_render_of_ok accepted second secondCache
  refine ⟨_, _, firstJson, secondJson, toJson_shape_eq accepted margin,
    toJson_without_eq accepted margin, fun listless => ?_⟩
  obtain ⟨same, firstSame⟩ :=
    answer_surface_of_listless accepted margin listless first second firstCache secondCache
  obtain ⟨-, secondSame⟩ :=
    answer_surface_of_listless accepted margin listless second first secondCache firstCache
  rw [firstAfter, secondAfter]
  exact ⟨same, firstSame, secondSame⟩

/-- An engine with one space glyph, which is as wide as every letter. -/
def Engine.ofGlyph (glyph : String) : Engine Float :=
  ⟨{ letters := [], spaces := [(glyph, 10.0)] }, 10.0⟩

/-- A message with a list of two steps, the ninth and the tenth. -/
def stepsMessage : Element :=
  (Element.ofKind "Blocks").append [.element ((Element.ofKind "Section").append
    [.element (((Element.ofKind "ol").withAttribute "start" (.string "9")).append
      [.element ((Element.ofKind "li").append [.text "mix"]),
        .element ((Element.ofKind "li").append [.text "bake"])])])]

/-- The cache that one engine leaves is shared with another one. The ninth step is padded by
each with its own glyph, and nothing else is different. -/
theorem stepsMessage_differs_in_indents :
    stepsMessage.validate = .ok () ∧
      ∃ output other : Json,
        ((Cache.empty : Cache Float).answer (.ofGlyph "-") stepsMessage.render).1.json =
          .ok output ∧
        (((Cache.empty : Cache Float).answer (.ofGlyph "-") stepsMessage.render).2.answer
          (.ofGlyph "_") stepsMessage.render).1.json = .ok other ∧
        output = .array [.ofFields [("type", some (.string "section")),
          ("text", some (.ofFields [("type", some (.string "mrkdwn")),
            ("text", some (.string "-9. mix\n10. bake"))]))]] ∧
        other.without ((Engine.ofGlyph "-").isGlyphOfEither (.ofGlyph "_")) =
          .array [.ofFields [("type", some (.string "section")),
            ("text", some (.ofFields [("type", some (.string "mrkdwn")),
              ("text", some (.string "9. mix\n10. bake"))]))]] := by
  have accepted : stepsMessage.validate = .ok () := by rfl
  have apart : Cache.Distinct fun _ : Engine Float => True := fun _ _ _ _ same => same
  have shared : Cache.Sound (fun _ => True)
      ((Cache.empty : Cache Float).answer (.ofGlyph "-") stepsMessage.render).2 :=
    (Cache.transparent_answer apart trivial stepsMessage.render Cache.Sound.empty).2
  obtain ⟨output, other, first, second, -, same, -⟩ := Element.renders_differ_in_indents accepted
    (.ofGlyph "-") (.ofGlyph "_") Cache.empty
    ((Cache.empty : Cache Float).answer (.ofGlyph "-") stepsMessage.render).2
  have readOutput : output = .array [.ofFields [("type", some (.string "section")),
      ("text", some (.ofFields [("type", some (.string "mrkdwn")),
        ("text", some (.string "-9. mix\n10. bake"))]))]] :=
    Except.ok.inj (first.symm.trans (by rfl))
  refine ⟨accepted, output, other, first, second, readOutput, ?_⟩
  rw [← same nofun (shared.indentsOf trivial fun _ => Engine.isGlyphOfEither_of_second), readOutput]
  rfl

/-- After any calls, each on one of the engines that a cache tells apart, nothing needs to be asked
of what two of these engines find in their caches: the payloads of an accepted tree have one shape,
they are equal without the characters of space glyphs, and equal as they are if the tree has no
lists. The calls may have been made through one cache or through two. -/
theorem Element.renders_agree_after_calls [Profile Float] {root : Element}
    (accepted : root.validate = .ok ()) {engines : Engine Float → Prop}
    (distinct : Cache.Distinct engines) {first second : Engine Float} (firstUsed : engines first)
    (secondUsed : engines second) {calls others : List (LayoutCall Float)}
    (used : ∀ call ∈ calls ++ others, ∀ engine, call.engine? = some engine → engines engine) :
    ∃ output other : Json,
      ((LayoutCall.after .empty calls).answer first root.render).1.json = .ok output ∧
      ((LayoutCall.after .empty others).answer second root.render).1.json = .ok other ∧
      output.shape = other.shape ∧
      output.without (first.isGlyphOfEither second) =
        other.without (first.isGlyphOfEither second) ∧
      (root.IsListless → output = other) := by
  have margin := Width.not_below_zero
  obtain ⟨usedByCalls, usedByOthers⟩ := List.forall_mem_append.1 used
  have firstSound := LayoutCall.sound_after distinct calls usedByCalls .empty
  have secondSound := LayoutCall.sound_after distinct others usedByOthers .empty
  refine ⟨_, _, (answer_render_of_ok accepted first _).1, (answer_render_of_ok accepted second _).1,
    toJson_shape_eq accepted margin, toJson_without_eq accepted margin ?_ ?_, fun listless => ?_⟩
  · exact firstSound.indentsOf firstUsed fun _ => Engine.isGlyphOfEither_of_first
  · exact secondSound.indentsOf secondUsed fun _ => Engine.isGlyphOfEither_of_second
  · exact (answer_surface_of_listless accepted margin listless first second _ _).1

end MessageBlocks
