import MessageBlocks.Layout.Cache

/-!
# Indents that fit into no text

A text has a greatest size in bytes. Where the copies of one glyph in an indent would exceed it, the
indent cannot be made, and the computation that asks for it ends without a result.
-/

namespace MessageBlocks

/-- The greatest count of copies. A greater one is cut off. -/
def maxCount : Nat :=
  Number.powerOfTwo 64 - 1

/-- The greatest size of a text in bytes. -/
def maxBytes : Nat :=
  Number.powerOfTwo 63 - 1

variable {W α β : Type} [Width W]

namespace Engine

/-- Whether the copies of a glyph fit into a text. -/
def fits (part : Glyph W × Nat) : Bool :=
  min part.2 maxCount * part.1.text.utf8ByteSize ≤ maxBytes

/-- An indent, if the copies of each of its glyphs fit into a text. -/
def indent? (engine : Engine W) (width : W) : Option (List Char) :=
  if (engine.composition width).all fits then some (engine.indent width) else none

end Engine

/-- The result of a query that an engine answers, if it can make all indents on the way. -/
def Query.answer? (engine : Engine W) : Query W α → Option α
  | .pure result => some result
  | .measure text resume => (resume (engine.measure text)).answer? engine
  | .indent width resume => (engine.indent? width).bind fun text => (resume text).answer? engine

namespace Cache

variable [Profile W] [DecidableEq W]

/-- An indent through the cache, if it is there or can be made. -/
def makeIndent? (engine : Engine W) (width : W) (cache : Cache W) :
    Option (List Char × Cache W) :=
  if (cache.indent? engine width).isSome || (engine.indent? width).isSome then
    some (indent engine width cache)
  else none

/-- The result of a query that an engine answers through a cache, if it can make all indents on the
way that are not there. -/
def answer? (engine : Engine W) : Query W α → Cache W → Option (α × Cache W)
  | .pure result, cache => some (result, cache)
  | .measure text resume, cache =>
      let (width, cache) := measure engine text cache
      answer? engine (resume width) cache
  | .indent width resume, cache => do
      let (text, cache) ← makeIndent? engine width cache
      answer? engine (resume text) cache

/-- A computation goes on where the one before it has a result, with the cache that it has left. -/
theorem answer?_bind (engine : Engine W) (query : Query W α) (next : α → Query W β)
    (cache : Cache W) :
    cache.answer? engine (query >>= next) = (cache.answer? engine query).bind fun found =>
      found.2.answer? engine (next found.1) := by
  induction query generalizing cache with
  | pure result => rfl
  | measure text resume ih => exact ih _ _
  | indent width resume ih =>
      rw [answer?, Option.bind_eq_bind, Option.bind_assoc]
      exact congrArg (Option.bind _) (funext fun (text, later) => ih text later)

@[simp]
theorem answer?_map (engine : Engine W) (convert : α → β) (query : Query W α) (cache : Cache W) :
    cache.answer? engine (convert <$> query) =
      (cache.answer? engine query).map fun found => (convert found.1, found.2) :=
  (answer?_bind engine query (pure ∘ convert) cache).trans (Option.map_eq_bind ..).symm

end Cache

end MessageBlocks
