import MessageBlocks.Layout.Query

/-!
# The layout cache

A cache remembers widths and indents under the profile of the engine that
computed them, so engines with different metrics or fallbacks can share one
cache without reading each other's entries. Nothing is ever dropped except by
clearing.
-/

namespace MessageBlocks

/-- What stands for the metrics and the fallback of an engine in the keys of a cache. -/
class Profile (W : Type) where
  /-- The keys of engines. -/
  Key : Type
  /-- Keys can be told apart. -/
  keyEq : DecidableEq Key
  /-- The key of an engine. -/
  ofEngine : Engine W → Key

namespace Profile

instance {W : Type} [Profile W] : DecidableEq (Key W) :=
  keyEq

/-- Unless something else is asked for, an engine stands for itself, which tells all
engines apart. -/
instance ofSelf {W : Type} [DecidableEq W] : Profile W where
  Key := Engine W
  keyEq := inferInstance
  ofEngine := id

end Profile

/-- The widths and indents computed so far. -/
structure Cache (W : Type) [Profile W] where
  widths : List ((Profile.Key W × List Char) × W)
  indents : List ((Profile.Key W × W) × List Char)

namespace Cache

variable {W α β : Type} [Profile W]

def empty : Cache W :=
  ⟨[], []⟩

/-- Put an entry in front and drop an older one with the same key. -/
def remember {κ β : Type} [DecidableEq κ] (key : κ) (value : β) (entries : List (κ × β)) :
    List (κ × β) :=
  (key, value) :: entries.filter (·.1 ≠ key)

variable [DecidableEq W]

def width? (cache : Cache W) (engine : Engine W) (text : List Char) : Option W :=
  Keyed.find? (Profile.ofEngine engine, text) cache.widths

def indent? (cache : Cache W) (engine : Engine W) (width : W) : Option (List Char) :=
  Keyed.find? (Profile.ofEngine engine, width) cache.indents

def storeWidth (cache : Cache W) (engine : Engine W) (text : List Char) (width : W) : Cache W :=
  { cache with widths := remember (Profile.ofEngine engine, text) width cache.widths }

def storeIndent (cache : Cache W) (engine : Engine W) (width : W) (text : List Char) : Cache W :=
  { cache with indents := remember (Profile.ofEngine engine, width) text cache.indents }

variable [Width W]

/-- The width of a text, from the cache if it is there and remembered if not. -/
def measure (engine : Engine W) (text : List Char) (cache : Cache W) : W × Cache W :=
  match cache.width? engine text with
  | some width => (width, cache)
  | none => (engine.measure text, cache.storeWidth engine text (engine.measure text))

/-- An indent, from the cache if it is there and remembered if not. Widths that
are not above zero have the empty indent and leave the cache alone. -/
def indent (engine : Engine W) (width : W) (cache : Cache W) : List Char × Cache W :=
  if Width.below Width.zero width then
    match cache.indent? engine width with
    | some text => (text, cache)
    | none => (engine.indent width, cache.storeIndent engine width (engine.indent width))
  else ([], cache)

/-- The result of a query that an engine answers through a cache. -/
def answer (engine : Engine W) : Query W α → Cache W → α × Cache W
  | .pure result, cache => (result, cache)
  | .measure text resume, cache =>
      let (width, cache) := measure engine text cache
      answer engine (resume width) cache
  | .indent width resume, cache =>
      let (text, cache) := indent engine width cache
      answer engine (resume text) cache

/-- A computation goes on with the cache that the one before it has left. -/
theorem answer_bind (engine : Engine W) (query : Query W α) (next : α → Query W β)
    (cache : Cache W) :
    cache.answer engine (query >>= next) =
      (cache.answer engine query).2.answer engine (next (cache.answer engine query).1) := by
  induction query generalizing cache with
  | pure result => rfl
  | measure text resume ih => exact ih _ _
  | indent width resume ih => exact ih _ _

@[simp]
theorem answer_map (engine : Engine W) (convert : α → β) (query : Query W α) (cache : Cache W) :
    cache.answer engine (convert <$> query) =
      (convert (cache.answer engine query).1, (cache.answer engine query).2) :=
  answer_bind engine query (pure ∘ convert) cache

end Cache

end MessageBlocks
