import MessageBlocks.Layout.Engine

/-!
# Queries to a layout engine

Rendering asks an engine for widths and indents and goes on with the answers. A
query is such a computation as data, so the same rendering can be answered by an
engine alone or through a cache.
-/

namespace MessageBlocks

/-- A computation that asks for widths and indents. -/
inductive Query (W α : Type) where
  | pure (result : α)
  | measure (text : List Char) (resume : W → Query W α)
  | indent (width : W) (resume : List Char → Query W α)

namespace Query

variable {W α β : Type}

def bind : Query W α → (α → Query W β) → Query W β
  | .pure result, next => next result
  | .measure text resume, next => .measure text fun width => (resume width).bind next
  | .indent width resume, next => .indent width fun text => (resume text).bind next

instance : Monad (Query W) where
  pure := Query.pure
  bind := Query.bind

def width (text : List Char) : Query W W :=
  .measure text .pure

def indentOf (width : W) : Query W (List Char) :=
  .indent width .pure

/-- The result of a query that an engine answers. -/
def answer [Width W] (engine : Engine W) : Query W α → α
  | .pure result => result
  | .measure text resume => (resume (engine.measure text)).answer engine
  | .indent width resume => (resume (engine.indent width)).answer engine

@[simp]
theorem answer_pure [Width W] (engine : Engine W) (result : α) :
    (Pure.pure result : Query W α).answer engine = result :=
  rfl

@[simp]
theorem answer_width [Width W] (engine : Engine W) (text : List Char) :
    (width text).answer engine = engine.measure text :=
  rfl

@[simp]
theorem answer_indentOf [Width W] (engine : Engine W) (width : W) :
    (indentOf width).answer engine = engine.indent width :=
  rfl

@[simp]
theorem answer_bind [Width W] (engine : Engine W) (query : Query W α) (next : α → Query W β) :
    (query >>= next).answer engine = (next (query.answer engine)).answer engine := by
  induction query with
  | pure result => rfl
  | measure text resume ih => exact ih _
  | indent width resume ih => exact ih _

theorem bind_pure_self (query : Query W α) : query.bind .pure = query := by
  induction query with
  | pure result => rfl
  | measure text resume ih => exact congrArg (Query.measure text) (funext ih)
  | indent width resume ih => exact congrArg (Query.indent width) (funext ih)

theorem bind_bind {γ : Type} (query : Query W α) (next : α → Query W β) (last : β → Query W γ) :
    (query.bind next).bind last = query.bind fun result => (next result).bind last := by
  induction query with
  | pure result => rfl
  | measure text resume ih => exact congrArg (Query.measure text) (funext ih)
  | indent width resume ih => exact congrArg (Query.indent width) (funext ih)

instance : LawfulMonad (Query W) :=
  .mk' _ bind_pure_self (fun _ _ => rfl) bind_bind

@[simp]
theorem answer_map [Width W] (engine : Engine W) (convert : α → β) (query : Query W α) :
    (convert <$> query).answer engine = convert (query.answer engine) :=
  answer_bind engine query (Pure.pure ∘ convert)

end Query

end MessageBlocks
