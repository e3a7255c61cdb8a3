import Mathlib.Data.List.Basic
import MessageBlocks.Proofs.Outcome
import MessageBlocks.Settings.Substitution

/-!
# References in texts

A text is a sequence of escaped references, references and single characters. The scan
for references reads it this way from left to right, and since a reference has its only
dollar sign in front, no two overlap. A reference is live unless the character before it
is a dollar sign. The replacement succeeds exactly if every live reference has a value.
-/

namespace MessageBlocks.Reference

/-- A name that a reference may have. -/
def IsName (name : List Char) : Prop :=
  ∃ first rest, name = first :: rest ∧ isNameStart first = true ∧
    ∀ character ∈ rest, isNamePart character = true

/-- The reference to a name. -/
def written (name : List Char) : List Char :=
  '$' :: '\x7b' :: (name ++ ['\x7d'])

/-- `IsLive text name`: the text refers to the name, and not right after a dollar sign. -/
def IsLive (text name : List Char) : Prop :=
  IsName name ∧ ∃ before after, text = before ++ written name ++ after ∧
    before.getLast? ≠ some '$'

/-- Whether a variable is set and not empty. -/
def HasValue (environment : Environment) (name : List Char) : Prop :=
  ∃ value, environment.lookup (String.ofList name) = some value ∧ value ≠ ""

variable {environment : Environment} {name other text rest : List Char} {character : Char}

section Names

theorem isNamePart_of_mem (isName : IsName name) (member : character ∈ name) :
    isNamePart character = true := by
  obtain ⟨first, rest, rfl, start, parts⟩ := isName
  rcases List.mem_cons.1 member with rfl | inRest
  · simp [isNamePart, start]
  · exact parts character inRest

theorem dollar_notMem (isName : IsName name) : '$' ∉ name :=
  fun member => absurd (isNamePart_of_mem isName member) (by decide)

theorem length_written (name : List Char) : (written name).length = size name := by
  simp [written, size]

/-- A name is read up to the closing brace. -/
theorem takeWhile_name (isName : IsName name) (rest : List Char) :
    (name ++ '\x7d' :: rest).takeWhile isNamePart = name := by
  rw [List.takeWhile_append_of_pos fun _ => isNamePart_of_mem isName,
    List.takeWhile_cons_of_neg (by decide), List.append_nil]

theorem name?_written (isName : IsName name) (rest : List Char) :
    name? (written name ++ rest) = some name := by
  have spanned := takeWhile_name isName rest
  obtain ⟨first, others, rfl, start, -⟩ := isName
  simp only [written, List.cons_append, List.append_assoc, List.nil_append, name?] at spanned ⊢
  rw [spanned]
  simp [start]

theorem exists_of_name? (found : name? text = some name) :
    IsName name ∧ ∃ rest, text = written name ++ rest := by
  unfold name? at found
  split at found
  · next rest =>
      have parts := List.takeWhile_append_dropWhile (p := isNamePart) (l := rest)
      have allParts : ∀ character ∈ rest.takeWhile isNamePart, isNamePart character = true :=
        fun character member => List.all_eq_true.1 List.all_takeWhile character member
      generalize rest.takeWhile isNamePart = spanned at found parts allParts
      generalize rest.dropWhile isNamePart = tail at parts
      subst parts
      simp only [List.drop_left, Option.ite_none_right_eq_some, Bool.and_eq_true,
        beq_iff_eq] at found
      obtain ⟨⟨start, closed⟩, same⟩ := found
      obtain rfl := Option.some.inj same
      obtain ⟨first, others, rfl⟩ : ∃ first others, spanned = first :: others := by
        cases spanned with
        | nil => cases start
        | cons first others => exact ⟨first, others, rfl⟩
      obtain ⟨after, rfl⟩ : ∃ after, tail = '\x7d' :: after := by
        cases tail with
        | nil => cases closed
        | cons close after => exact ⟨after, by rw [← Option.some.inj closed]⟩
      exact ⟨⟨first, others, rfl, start, fun character member =>
        allParts character (List.mem_cons_of_mem _ member)⟩, after, by simp [written]⟩
  · cases found

end Names

section Replacement

theorem replaceFrom_drop (environment : Environment) (skipped : Nat) (text : List Char) :
    replaceFrom environment skipped text = replace environment (text.drop skipped) := by
  induction text generalizing skipped with
  | nil => cases skipped <;> rfl
  | cons character rest ih =>
      cases skipped with
      | zero => rfl
      | succ skipped => exact ih skipped

theorem replace_escaped (isName : IsName name) (rest : List Char) :
    replace environment ('$' :: (written name ++ rest)) =
      (written name ++ ·) <$> replace environment rest := by
  have taken : (written name ++ rest).take (size name) = written name := by
    rw [← length_written, List.take_left]
  have dropped : (written name ++ rest).drop (size name) = rest := by
    rw [← length_written, List.drop_left]
  rw [replace, replaceFrom, if_pos rfl, name?_written isName]
  simp only [taken, replaceFrom_drop, dropped]
  rfl

theorem replace_written (isName : IsName name) (rest : List Char) :
    replace environment (written name ++ rest) =
      match value? environment (String.ofList name) with
      | some value => (value.toList ++ ·) <$> replace environment rest
      | none => .error (String.ofList name) := by
  have head : written name ++ rest = '$' :: ('\x7b' :: (name ++ ['\x7d']) ++ rest) := rfl
  have notEscaped : name? ('\x7b' :: (name ++ ['\x7d']) ++ rest) = none := rfl
  have dropped : ('\x7b' :: (name ++ ['\x7d']) ++ rest).drop (size name - 1) = rest :=
    List.drop_left' (by simp [size])
  rw [replace, head, replaceFrom, if_pos rfl, notEscaped, ← head, name?_written isName]
  simp only [replaceFrom_drop, dropped]
  rfl

theorem replace_literal (notEscaped : character = '$' → name? rest = none)
    (notReference : name? (character :: rest) = none) :
    replace environment (character :: rest) = (character :: ·) <$> replace environment rest := by
  have escape : (if character = '$' then name? rest else none) = none := by
    split
    · next isDollar => exact notEscaped isDollar
    · rfl
  rw [replace, replaceFrom, escape, notReference]
  rfl

end Replacement

/-- A text is empty, or it starts with an escaped reference, a reference or another character. -/
theorem induction {motive : List Char → Prop} (nil : motive [])
    (escaped : ∀ name rest, IsName name → motive rest → motive ('$' :: (written name ++ rest)))
    (reference : ∀ name rest, IsName name → motive rest → motive (written name ++ rest))
    (literal : ∀ character rest, (character = '$' → name? rest = none) →
      name? (character :: rest) = none → motive rest → motive (character :: rest))
    (text : List Char) : motive text := by
  induction counted : text.length using Nat.strongRecOn generalizing text with
  | ind length ih =>
      subst counted
      cases text with
      | nil => exact nil
      | cons character rest =>
          by_cases isEscape : character = '$' ∧ (name? rest).isSome = true
          · obtain ⟨rfl, found⟩ := isEscape
            obtain ⟨name, named⟩ := Option.isSome_iff_exists.1 found
            obtain ⟨isName, after, rfl⟩ := exists_of_name? named
            have shorter : after.length < ('$' :: (written name ++ after)).length := by
              simp only [List.length_cons, List.length_append]
              omega
            exact escaped name after isName (ih _ shorter after rfl)
          · cases named : name? (character :: rest) with
            | some name =>
                obtain ⟨isName, after, same⟩ := exists_of_name? named
                rw [same] at ih ⊢
                have shorter : after.length < (written name ++ after).length := by
                  rw [List.length_append, length_written, size]
                  omega
                exact reference name after isName (ih _ shorter after rfl)
            | none =>
                refine literal character rest (fun isDollar => ?_) named (ih _ (by simp) rest rfl)
                simpa [isDollar] using isEscape

section Live

/-- `IsLiveAfter previous text name`: the text refers to the name, and not right after a dollar
sign when it stands after the given character. -/
def IsLiveAfter (previous : Option Char) (text name : List Char) : Prop :=
  IsName name ∧ ∃ before after, text = before ++ written name ++ after ∧
    before.getLast?.or previous ≠ some '$'

variable {previous : Option Char}

theorem isLive_iff : IsLive text name ↔ IsLiveAfter none text name := by
  simp [IsLive, IsLiveAfter]

theorem not_isLiveAfter_nil : ¬ IsLiveAfter previous [] name := by
  rintro ⟨-, before, after, same, -⟩
  simp [written] at same

/-- A live reference stands at the start of a text or after its first character. -/
theorem isLiveAfter_cons :
    IsLiveAfter previous (character :: rest) name ↔
      (previous ≠ some '$' ∧ name? (character :: rest) = some name) ∨
        IsLiveAfter (some character) rest name := by
  constructor
  · rintro ⟨isName, before, after, same, live⟩
    cases before with
    | nil =>
        rw [same, List.nil_append]
        exact .inl ⟨by simpa using live, name?_written isName after⟩
    | cons first before =>
        obtain ⟨rfl, rfl⟩ := List.cons.inj same
        refine .inr ⟨isName, before, after, rfl, ?_⟩
        rw [List.getLast?_cons] at live
        cases last : before.getLast? <;> simp_all
  · rintro (⟨live, found⟩ | ⟨isName, before, after, rfl, live⟩)
    · obtain ⟨isName, after, same⟩ := exists_of_name? found
      exact ⟨isName, [], after, same, by simpa using live⟩
    · refine ⟨isName, character :: before, after, rfl, ?_⟩
      rw [List.getLast?_cons]
      cases last : before.getLast? <;> simp_all

/-- No reference starts in a text without dollar signs. -/
theorem isLiveAfter_append {lead : List Char} (noDollar : '$' ∉ lead) :
    IsLiveAfter previous (lead ++ rest) name ↔ IsLiveAfter (lead.getLast?.or previous) rest name := by
  induction lead generalizing previous with
  | nil => rfl
  | cons first lead ih =>
      rw [List.mem_cons, not_or] at noDollar
      have notHere : name? (first :: (lead ++ rest)) ≠ some name := by
        intro found
        obtain ⟨-, after, same⟩ := exists_of_name? found
        exact noDollar.1 (List.cons.inj same).1.symm
      rw [List.cons_append, isLiveAfter_cons, ih noDollar.2, List.getLast?_cons]
      cases last : lead.getLast? <;> simp [notHere]

/-- What stands in front matters only if a reference starts the text. -/
theorem isLiveAfter_congr {one two : Option Char} (text : List Char)
    (same : name? text ≠ none → (one = some '$' ↔ two = some '$')) :
    IsLiveAfter one text name ↔ IsLiveAfter two text name := by
  cases text with
  | nil => exact iff_of_false not_isLiveAfter_nil not_isLiveAfter_nil
  | cons character rest =>
      rw [isLiveAfter_cons, isLiveAfter_cons]
      cases found : name? (character :: rest) with
      | none => simp
      | some other => simp [same (by simp [found])]

theorem isLive_literal (notEscaped : character = '$' → name? rest = none)
    (notReference : name? (character :: rest) = none) :
    IsLive (character :: rest) name ↔ IsLive rest name := by
  rw [isLive_iff, isLive_iff, isLiveAfter_cons, notReference]
  have apart : name? rest ≠ none → (some character = some '$' ↔ none = some '$') := by
    intro starts
    simpa using fun isDollar => starts (notEscaped isDollar)
  simp [isLiveAfter_congr rest apart]

/-- After a reference nothing of it matters but its closing brace. -/
theorem isLiveAfter_body (isName : IsName other) :
    IsLiveAfter (some '$') ('\x7b' :: (other ++ ['\x7d']) ++ rest) name ↔ IsLive rest name := by
  have noDollar : '$' ∉ '\x7b' :: (other ++ ['\x7d']) := by simp [dollar_notMem isName]
  rw [isLiveAfter_append noDollar, isLive_iff]
  exact isLiveAfter_congr rest fun _ => by simp [List.getLast?_cons]

theorem isLive_written (isName : IsName other) :
    IsLive (written other ++ rest) name ↔ name = other ∨ IsLive rest name := by
  have head : written other ++ rest = '$' :: ('\x7b' :: (other ++ ['\x7d']) ++ rest) := rfl
  rw [isLive_iff, head, isLiveAfter_cons, ← head, name?_written isName, isLiveAfter_body isName]
  simp [eq_comm]

theorem isLive_escaped (isName : IsName other) :
    IsLive ('$' :: (written other ++ rest)) name ↔ IsLive rest name := by
  have head : written other ++ rest = '$' :: ('\x7b' :: (other ++ ['\x7d']) ++ rest) := rfl
  have twice : name? ('$' :: '$' :: ('\x7b' :: (other ++ ['\x7d']) ++ rest)) = none := rfl
  rw [isLive_iff, isLiveAfter_cons, head, isLiveAfter_cons, isLiveAfter_body isName, twice]
  simp

end Live

theorem lookup_of_value? {name value : String} (found : value? environment name = some value) :
    environment.lookup name = some value :=
  (Option.filter_eq_some_iff.1 found).1

theorem exists_value?_iff :
    (∃ value, value? environment (String.ofList name) = some value) ↔
      HasValue environment name := by
  simp [value?, HasValue, Option.filter_eq_some_iff]

/-- References are replaced exactly if each one that is live names a variable with a value. -/
theorem exists_replace_eq_ok_iff (environment : Environment) (text : List Char) :
    (∃ replaced, replace environment text = .ok replaced) ↔
      ∀ name, IsLive text name → HasValue environment name := by
  induction text using Reference.induction with
  | nil =>
      refine iff_of_true ⟨[], rfl⟩ fun name live => ?_
      exact absurd (isLive_iff.1 live) not_isLiveAfter_nil
  | escaped name rest isName ih =>
      rw [replace_escaped isName, exists_map_eq_ok_iff, ih]
      simp only [isLive_escaped isName]
  | reference name rest isName ih =>
      simp only [isLive_written isName, forall_eq_or_imp]
      rw [replace_written isName, ← ih, ← exists_value?_iff]
      cases value? environment (String.ofList name) with
      | none => simp
      | some value => simp [exists_map_eq_ok_iff]
  | literal character rest notEscaped notReference ih =>
      rw [replace_literal notEscaped notReference, exists_map_eq_ok_iff, ih]
      simp only [isLive_literal notEscaped notReference]

end MessageBlocks.Reference
