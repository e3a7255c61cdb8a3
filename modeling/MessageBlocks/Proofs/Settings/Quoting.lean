import MessageBlocks.Proofs.Settings.FirstMissing

/-!
# Writing texts literally

Every text can be written so that resolving gives it back: a dollar sign goes in front of
each reference in it, whatever stands before the reference. The dollar sign that is added is
the one that the scan drops again, also where more of them stand in front.
-/

namespace MessageBlocks

namespace Reference

/-- The text with a dollar sign put in front of every reference. -/
def quote : List Char → List Char
  | [] => []
  | character :: rest =>
      (if (name? (character :: rest)).isSome then ['$'] else []) ++ character :: quote rest

variable {environment : Environment} {name text rest : List Char} {character : Char}

theorem quote_of_notReference (notReference : name? (character :: rest) = none) :
    quote (character :: rest) = character :: quote rest := by
  simp [quote, notReference]

/-- Nothing is put into a text without dollar signs. -/
theorem quote_append_of_noDollar {lead : List Char} (noDollar : '$' ∉ lead) (rest : List Char) :
    quote (lead ++ rest) = lead ++ quote rest := by
  induction lead with
  | nil => rfl
  | cons first lead ih =>
      rw [List.mem_cons, not_or] at noDollar
      have notReference : name? (first :: (lead ++ rest)) = none :=
        name?_eq_none_of_head? fun isDollar => noDollar.1 (Option.some.inj isDollar).symm
      rw [List.cons_append, quote_of_notReference notReference, ih noDollar.2, List.cons_append]

theorem quote_written (isName : IsName name) (rest : List Char) :
    quote (written name ++ rest) = '$' :: (written name ++ quote rest) := by
  have noDollar : '$' ∉ '\x7b' :: (name ++ ['\x7d']) := by simp [dollar_notMem isName]
  have head : written name ++ rest = '$' :: ('\x7b' :: (name ++ ['\x7d']) ++ rest) := rfl
  rw [head, quote, ← head, name?_written isName, quote_append_of_noDollar noDollar]
  rfl

/-- Where a quoted text starts without a dollar sign, so does the text itself. -/
theorem exists_of_quote_eq_append {lead after : List Char} (noDollar : '$' ∉ lead)
    (same : quote text = lead ++ after) : ∃ following, text = lead ++ following := by
  induction lead generalizing text with
  | nil => exact ⟨text, rfl⟩
  | cons first lead ih =>
      rw [List.mem_cons, not_or] at noDollar
      cases text with
      | nil => cases same
      | cons character rest =>
          cases found : name? (character :: rest) with
          | some name =>
              rw [quote, found] at same
              exact absurd (List.cons.inj same).1 noDollar.1
          | none =>
              rw [quote_of_notReference found] at same
              obtain ⟨rfl, sameRest⟩ := List.cons.inj same
              obtain ⟨following, rfl⟩ := ih noDollar.2 sameRest
              exact ⟨following, rfl⟩

/-- Quoting what follows a character makes no reference of it. -/
theorem name?_cons_quote (notReference : name? (character :: rest) = none) :
    name? (character :: quote rest) = none := by
  cases found : name? (character :: quote rest) with
  | none => rfl
  | some name =>
      obtain ⟨isName, after, same⟩ := exists_of_name? found
      obtain ⟨rfl, sameRest⟩ := List.cons.inj same
      have noDollar : '$' ∉ '\x7b' :: (name ++ ['\x7d']) := by simp [dollar_notMem isName]
      obtain ⟨following, rfl⟩ := exists_of_quote_eq_append noDollar sameRest
      have isReference : name? (written name ++ following) = some name := name?_written isName _
      have notWritten : name? (written name ++ following) = none := notReference
      rw [isReference] at notWritten
      cases notWritten

/-- No quoted text starts with a reference: a dollar sign stands in front of it. -/
theorem name?_quote (text : List Char) : name? (quote text) = none := by
  cases text with
  | nil => rfl
  | cons character rest =>
      cases found : name? (character :: rest) with
      | none =>
          rw [quote_of_notReference found]
          exact name?_cons_quote found
      | some name =>
          obtain ⟨isName, after, same⟩ := exists_of_name? found
          rw [same, quote_written isName, name?_dollar_written]

/-- Replacing the references of a quoted text gives the text back. -/
theorem replace_quote (environment : Environment) (text : List Char) :
    replace environment (quote text) = .ok text := by
  induction text using Reference.induction with
  | nil => rfl
  | escaped name rest isName ih =>
      have quoted : quote ('$' :: (written name ++ rest)) =
          '$' :: '$' :: (written name ++ quote rest) := by
        rw [quote_of_notReference (name?_dollar_written name rest), quote_written isName]
      rw [quoted, replace_literal (fun _ => name?_dollar_written name (quote rest)) rfl,
        replace_escaped isName, ih]
      rfl
  | reference name rest isName ih =>
      rw [quote_written isName, replace_escaped isName, ih]
      rfl
  | literal character rest notEscaped notReference ih =>
      rw [quote_of_notReference notReference,
        replace_literal (fun _ => name?_quote rest) (name?_cons_quote notReference), ih]
      rfl

/-- The text with a dollar sign put in front of every reference, as a string. -/
def quoteText (text : String) : String :=
  String.ofList (quote text.toList)

end Reference

namespace Json

open Reference

variable {environment : Environment}

theorem substituteString_quoteText (environment : Environment) (path text : String) :
    substituteString environment path (quoteText text) = .ok text := by
  rw [substituteString, quoteText, String.toList_ofList, replace_quote]
  simp

mutual

theorem substitute_quoted (path : String) : ∀ value : Json,
    substitute environment path (value.mapStrings quoteText) = .ok value
  | .string text => by
      rw [mapStrings, substitute, substituteString_quoteText]
      rfl
  | .array items => by
      rw [mapStrings, substitute, substituteItems_quoted path 0 items]
      rfl
  | .object members => by
      rw [mapStrings, substitute, substituteMembers_quoted path members]
      rfl
  | .null | .bool _ | .integer _ | .float _ | .unreadable => rfl

theorem substituteItems_quoted (path : String) (index : Nat) : ∀ items : List Json,
    substituteItems environment path index (mapItems quoteText items) = .ok items
  | [] => rfl
  | item :: rest => by
      rw [mapItems, substituteItems, substitute_quoted _ item,
        substituteItems_quoted path (index + 1) rest]
      rfl

theorem substituteMembers_quoted (path : String) : ∀ members : List (String × Json),
    substituteMembers environment path (mapMembers quoteText members) = .ok members
  | [] => rfl
  | (name, value) :: rest => by
      rw [mapMembers, substituteMembers, substitute_quoted _ value,
        substituteMembers_quoted path rest]
      rfl

end

/-- Whatever the environment is, a text is what its quoted form is resolved to, and so is a
value with all its strings quoted. -/
theorem resolve_quoted (environment : Environment) :
    (∀ path text, substituteString environment path (quoteText text) = .ok text) ∧
      ∀ value : Json, (value.mapStrings quoteText).resolve environment = .ok value :=
  ⟨substituteString_quoteText environment, substitute_quoted ""⟩

end Json

end MessageBlocks
