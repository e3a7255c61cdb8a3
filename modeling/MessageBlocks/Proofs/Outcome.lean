/-!
# Outcomes of steps that may fail

Steps run one after the other have a result exactly if each of them has one, and the first
one that fails decides the error.
-/

namespace MessageBlocks

variable {α β ε ε' : Type}

theorem bind_eq_ok_iff {first : Except ε α} {next : α → Except ε β} {result : β} :
    (first >>= next) = .ok result ↔ ∃ value, first = .ok value ∧ next value = .ok result := by
  cases first <;> simp [bind, Except.bind]

theorem bind_eq_error_iff {first : Except ε α} {next : α → Except ε β} {error : ε} :
    (first >>= next) = .error error ↔
      first = .error error ∨ ∃ value, first = .ok value ∧ next value = .error error := by
  cases first <;> simp [bind, Except.bind]

theorem both_eq_ok_iff {first second : Except ε Unit} :
    (first >>= fun _ => second) = .ok () ↔ first = .ok () ∧ second = .ok () := by
  cases first <;> simp [bind, Except.bind]

theorem map_eq_ok_iff {convert : α → β} {first : Except ε α} {result : β} :
    convert <$> first = .ok result ↔ ∃ value, first = .ok value ∧ convert value = result := by
  cases first <;> simp [Functor.map, Except.map]

theorem map_eq_error_iff {convert : α → β} {first : Except ε α} {error : ε} :
    convert <$> first = .error error ↔ first = .error error := by
  cases first <;> simp [Functor.map, Except.map]

theorem exists_map_eq_ok_iff {convert : α → β} {first : Except ε α} :
    (∃ result, convert <$> first = .ok result) ↔ ∃ value, first = .ok value := by
  cases first <;> simp [Functor.map, Except.map]

theorem mapError_eq_ok_iff {convert : ε → ε'} {first : Except ε α} {result : α} :
    first.mapError convert = .ok result ↔ first = .ok result := by
  cases first with
  | error failure => constructor <;> intro same <;> cases same
  | ok value => constructor <;> intro same <;> cases same <;> rfl

end MessageBlocks
