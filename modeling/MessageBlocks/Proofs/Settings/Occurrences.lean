import MessageBlocks.Proofs.Settings.References

/-!
# Occurrences of references

A reference occurs at a position of a text, and the character before it decides whether it is
live or escaped. This says of each position by itself what the replacement leaves of it: the
value of a live reference stands for all its characters, the dollar sign that escapes a
reference goes, and every other character stays. The scan agrees with it, and what it reports
is the first live reference without a value.
-/

namespace MessageBlocks.Reference

/-- `OccursAt text position name`: the reference to the name stands at the position. -/
def OccursAt (text : List Char) (position : Nat) (name : List Char) : Prop :=
  IsName name ∧ ∃ before after, text = before ++ written name ++ after ∧ before.length = position

/-- Whether the character before a position is a dollar sign. -/
def followsDollar (text : List Char) : Nat → Bool
  | 0 => false
  | position + 1 => text[position]? == some '$'

/-- `IsLiveAt text position name`: the reference to the name that stands at the position is
not escaped. -/
def IsLiveAt (text : List Char) (position : Nat) (name : List Char) : Prop :=
  OccursAt text position name ∧ followsDollar text position = false

/-- The name of the live reference at a position. -/
def liveAt? (text : List Char) (position : Nat) : Option (List Char) :=
  if followsDollar text position then none else name? (text.drop position)

/-- Whether a live reference starts before a position and ends after it. -/
def isInside (text : List Char) (position : Nat) : Bool :=
  (List.range position).any fun start =>
    (liveAt? text start).any fun name => position < start + size name

/-- Whether the character at a position escapes a reference. -/
def isEscape (text : List Char) (position : Nat) : Bool :=
  text[position]? == some '$' && (name? (text.drop (position + 1))).isSome

/-- The text that the environment has for a name. There is none for a variable that is not set. -/
def textOf (environment : Environment) (name : List Char) : List Char :=
  ((environment.lookup (String.ofList name)).getD "").toList

/-- What the replacement leaves of the character at a position. -/
def remainder (environment : Environment) (text : List Char) (position : Nat) : List Char :=
  match liveAt? text position with
  | some name => textOf environment name
  | none => if isInside text position || isEscape text position then [] else text[position]?.toList

/-- The text with the value of each live reference in its place and without the dollar signs
that escape references. -/
def rewrite (environment : Environment) (text : List Char) : List Char :=
  (List.range text.length).flatMap (remainder environment text)

variable {environment : Environment} {name other text lead rest : List Char} {character : Char}
  {position : Nat}

theorem name?_eq_none_of_head? (different : text.head? ≠ some '$') : name? text = none := by
  cases found : name? text with
  | none => rfl
  | some name =>
      obtain ⟨-, after, rfl⟩ := exists_of_name? found
      exact absurd rfl different

theorem occursAt_iff : OccursAt text position name ↔ name? (text.drop position) = some name := by
  constructor
  · rintro ⟨isName, before, after, rfl, rfl⟩
    rw [List.append_assoc, List.drop_left]
    exact name?_written isName after
  · intro found
    obtain ⟨isName, after, same⟩ := exists_of_name? found
    have inText : position ≤ text.length := by
      by_contra beyond
      rw [List.drop_eq_nil_of_le (by omega)] at same
      simp [written] at same
    refine ⟨isName, text.take position, after, ?_, List.length_take_of_le inText⟩
    rw [List.append_assoc, ← same, List.take_append_drop]

theorem isLiveAt_iff : IsLiveAt text position name ↔ liveAt? text position = some name := by
  rw [IsLiveAt, occursAt_iff, liveAt?]
  cases followsDollar text position <;> simp

theorem followsDollar_length (lead rest : List Char) :
    followsDollar (lead ++ rest) lead.length = (lead.getLast? == some '$') := by
  rcases lead.eq_nil_or_concat with rfl | ⟨front, final, rfl⟩
  · rfl
  · simp [followsDollar]

theorem getElem?_length_add (lead rest : List Char) (position : Nat) :
    (lead ++ rest)[lead.length + position]? = rest[position]? := by
  rw [List.getElem?_append_right (Nat.le_add_right _ _), Nat.add_sub_cancel_left]

theorem followsDollar_append (lead rest : List Char) (position : Nat) :
    followsDollar (lead ++ rest) (lead.length + (position + 1)) =
      followsDollar rest (position + 1) := by
  rw [← Nat.add_assoc, followsDollar, getElem?_length_add, followsDollar]

/-- The live references of a text are those at its positions. -/
theorem isLive_iff_exists : IsLive text name ↔ ∃ position, IsLiveAt text position name := by
  constructor
  · rintro ⟨isName, before, after, rfl, live⟩
    refine ⟨before.length, ⟨isName, before, after, rfl, rfl⟩, ?_⟩
    rw [List.append_assoc, followsDollar_length]
    simpa using live
  · rintro ⟨_, ⟨isName, before, after, rfl, rfl⟩, live⟩
    refine ⟨isName, before, after, rfl, ?_⟩
    rw [List.append_assoc, followsDollar_length] at live
    simpa using live

theorem isInside_iff :
    isInside text position = true ↔
      ∃ start < position, ∃ name, liveAt? text start = some name ∧
        position < start + size name := by
  simp [isInside, Option.any_eq_true]

section Cut

/-- `IsCut lead rest`: no reference reaches over the end of the first part of a text, and the
first part does not escape what follows. -/
structure IsCut (lead rest : List Char) : Prop where
  within : ∀ start name, start < lead.length → name? ((lead ++ rest).drop start) = some name →
    start + size name ≤ lead.length
  apart : lead.getLast? = some '$' → name? rest = none

theorem IsCut.liveAt?_append (cut : IsCut lead rest) (position : Nat) :
    liveAt? (lead ++ rest) (lead.length + position) = liveAt? rest position := by
  rw [liveAt?, liveAt?, List.drop_length_add_append]
  cases position with
  | zero =>
      rw [Nat.add_zero, followsDollar_length]
      by_cases dollar : lead.getLast? = some '$'
      · simp [dollar, cut.apart dollar]
      · simp [dollar, followsDollar]
  | succ position => rw [followsDollar_append]

theorem IsCut.isInside_append (cut : IsCut lead rest) (position : Nat) :
    isInside (lead ++ rest) (lead.length + position) = isInside rest position := by
  rw [Bool.eq_iff_iff, isInside_iff, isInside_iff]
  constructor
  · rintro ⟨start, before, name, live, reaches⟩
    by_cases inLead : start < lead.length
    · have found : name? ((lead ++ rest).drop start) = some name := by
        rw [liveAt?] at live
        split at live
        · cases live
        · exact live
      have ends := cut.within start name inLead found
      omega
    · obtain ⟨offset, rfl⟩ := Nat.exists_eq_add_of_le (Nat.not_lt.1 inLead)
      rw [cut.liveAt?_append] at live
      exact ⟨offset, by omega, name, live, by omega⟩
  · rintro ⟨offset, before, name, live, reaches⟩
    rw [← cut.liveAt?_append] at live
    exact ⟨lead.length + offset, by omega, name, live, by omega⟩

theorem isEscape_append (lead rest : List Char) (position : Nat) :
    isEscape (lead ++ rest) (lead.length + position) = isEscape rest position := by
  rw [isEscape, getElem?_length_add, Nat.add_assoc, List.drop_length_add_append, isEscape]

theorem IsCut.remainder_append (cut : IsCut lead rest) (environment : Environment)
    (position : Nat) :
    remainder environment (lead ++ rest) (lead.length + position) =
      remainder environment rest position := by
  rw [remainder, cut.liveAt?_append, cut.isInside_append, isEscape_append, getElem?_length_add,
    remainder]

/-- The parts of a text before and after a cut are rewritten by themselves. -/
theorem IsCut.rewrite_append (cut : IsCut lead rest) (environment : Environment) :
    rewrite environment (lead ++ rest) =
      (List.range lead.length).flatMap (remainder environment (lead ++ rest)) ++
        rewrite environment rest := by
  rw [rewrite, List.length_append, List.range_add, List.flatMap_append, List.flatMap_map, rewrite]
  congr 2
  funext position
  exact cut.remainder_append environment position

end Cut

section Parts

theorem isCut_literal (notEscaped : character = '$' → name? rest = none)
    (notReference : name? (character :: rest) = none) : IsCut [character] rest where
  within start name inLead found := by
    obtain rfl : start = 0 := by simpa using inLead
    rw [List.drop_zero, List.singleton_append, notReference] at found
    cases found
  apart isDollar := notEscaped (by simpa using isDollar)

theorem getLast?_written (name : List Char) : (written name).getLast? = some '\x7d' := by
  rw [written, ← List.cons_append, ← List.cons_append, List.getLast?_append]
  rfl

/-- No character of a reference but the first one is a dollar sign. -/
theorem getElem?_written_ne (isName : IsName name) (rest : List Char) (positive : 0 < position)
    (inName : position < size name) : (written name ++ rest)[position]? ≠ some '$' := by
  obtain ⟨offset, rfl⟩ := Nat.exists_eq_add_of_lt positive
  have inBody : 0 + offset < ('\x7b' :: (name ++ ['\x7d'])).length := by
    rw [size] at inName
    simp only [List.length_cons, List.length_append, List.length_nil]
    omega
  have same : (written name ++ rest)[0 + offset + 1]? =
      some (('\x7b' :: (name ++ ['\x7d']))[0 + offset]) := by
    rw [written, List.cons_append, List.getElem?_cons_succ, List.getElem?_append_left inBody,
      List.getElem?_eq_getElem inBody]
  rw [same]
  intro isDollar
  have member := List.getElem_mem inBody
  rw [Option.some.inj isDollar] at member
  simp [dollar_notMem isName] at member

theorem name?_drop_written (isName : IsName name) (rest : List Char) (positive : 0 < position)
    (inName : position < size name) : name? ((written name ++ rest).drop position) = none := by
  apply name?_eq_none_of_head?
  rw [List.head?_drop]
  exact getElem?_written_ne isName rest positive inName

theorem isCut_written (isName : IsName name) (rest : List Char) : IsCut (written name) rest where
  within start other inLead found := by
    rw [length_written] at inLead ⊢
    rcases Nat.eq_zero_or_pos start with rfl | positive
    · rw [List.drop_zero, name?_written isName] at found
      exact Nat.le_of_eq (by rw [Option.some.inj found, Nat.zero_add])
    · rw [name?_drop_written isName rest positive inLead] at found
      cases found
  apart isDollar := by
    rw [getLast?_written] at isDollar
    cases isDollar

theorem name?_dollar_written (name rest : List Char) :
    name? ('$' :: (written name ++ rest)) = none :=
  rfl

theorem isCut_escaped (isName : IsName name) (rest : List Char) :
    IsCut ('$' :: written name) rest where
  within start other inLead found := by
    cases start with
    | zero =>
        rw [List.drop_zero, List.cons_append, name?_dollar_written] at found
        cases found
    | succ start =>
        rw [List.cons_append, List.drop_succ_cons] at found
        have inWritten : start < (written name).length := by simpa using inLead
        have ends := (isCut_written isName rest).within start other inWritten found
        simp only [List.length_cons]
        omega
  apart isDollar := by
    rw [List.getLast?_cons, getLast?_written] at isDollar
    cases isDollar

theorem flatMap_range_getElem? (text : List Char) :
    ((List.range text.length).flatMap fun position => text[position]?.toList) = text := by
  induction text with
  | nil => rfl
  | cons character rest ih =>
      rw [List.length_cons, List.range_succ_eq_map, List.flatMap_cons, List.flatMap_map]
      simpa using ih

theorem rewrite_literal (notEscaped : character = '$' → name? rest = none)
    (notReference : name? (character :: rest) = none) :
    rewrite environment (character :: rest) = character :: rewrite environment rest := by
  have notLive : liveAt? (character :: rest) 0 = none := by
    rw [liveAt?, List.drop_zero, notReference]
    rfl
  have noEscape : isEscape (character :: rest) 0 = false := by
    by_cases isDollar : character = '$'
    · simp [isEscape, notEscaped isDollar]
    · simp [isEscape, isDollar]
  have kept : remainder environment (character :: rest) 0 = [character] := by
    rw [remainder, notLive, noEscape]
    rfl
  have split := (isCut_literal notEscaped notReference).rewrite_append environment
  simpa [kept] using split

theorem rewrite_written (isName : IsName name) (rest : List Char) :
    rewrite environment (written name ++ rest) =
      textOf environment name ++ rewrite environment rest := by
  have live : liveAt? (written name ++ rest) 0 = some name := by
    rw [liveAt?, List.drop_zero, name?_written isName]
    rfl
  have inside (position : Nat) (inName : position + 1 < size name) :
      remainder environment (written name ++ rest) (position + 1) = [] := by
    have notLive : liveAt? (written name ++ rest) (position + 1) = none := by
      rw [liveAt?, name?_drop_written isName rest (by omega) inName, ite_self]
    have covered : isInside (written name ++ rest) (position + 1) = true :=
      isInside_iff.2 ⟨0, by omega, name, live, by omega⟩
    rw [remainder, notLive, covered]
    rfl
  have first : remainder environment (written name ++ rest) 0 = textOf environment name := by
    rw [remainder, live]
  rw [(isCut_written isName rest).rewrite_append, length_written, size, List.range_succ_eq_map,
    List.flatMap_cons, first, List.flatMap_map]
  have others : ((List.range (name.length + 2)).flatMap fun position =>
      remainder environment (written name ++ rest) (position + 1)) = [] := by
    rw [List.flatMap_eq_nil_iff]
    intro position member
    exact inside position (by rw [size]; exact Nat.succ_lt_succ (List.mem_range.1 member))
  rw [others, List.append_nil]

/-- None of the positions of an escaped reference is live. -/
theorem liveAt?_escaped (isName : IsName name) (rest : List Char)
    (inName : position ≤ size name) :
    liveAt? ('$' :: (written name ++ rest)) position = none := by
  rw [liveAt?]
  rcases position with _ | _ | position
  · rw [List.drop_zero, name?_dollar_written, ite_self]
  · rfl
  · rw [List.drop_succ_cons, name?_drop_written isName rest (by omega) (by omega), ite_self]

theorem rewrite_escaped (isName : IsName name) (rest : List Char) :
    rewrite environment ('$' :: (written name ++ rest)) =
      written name ++ rewrite environment rest := by
  have notInside (position : Nat) (inName : position ≤ size name) :
      isInside ('$' :: (written name ++ rest)) position = false := by
    rw [Bool.eq_false_iff, ne_eq, isInside_iff]
    rintro ⟨start, before, other, live, -⟩
    rw [liveAt?_escaped isName rest (by omega)] at live
    cases live
  have noEscape (position : Nat) (inName : position < size name) :
      isEscape ('$' :: (written name ++ rest)) (position + 1) = false := by
    rcases position with _ | position
    · rfl
    · have notDollar := getElem?_written_ne isName rest (Nat.succ_pos position) inName
      simp [isEscape, notDollar]
  have dropped : remainder environment ('$' :: (written name ++ rest)) 0 = [] := by
    have escapes : isEscape ('$' :: (written name ++ rest)) 0 = true := by
      simp [isEscape, name?_written isName]
    rw [remainder, liveAt?_escaped isName rest (Nat.zero_le _), escapes, Bool.or_true]
    rfl
  have kept (position : Nat) (inName : position < size name) :
      remainder environment ('$' :: (written name ++ rest)) (position + 1) =
        (written name)[position]?.toList := by
    rw [remainder, liveAt?_escaped isName rest (by omega), notInside _ (by omega),
      noEscape position inName, List.getElem?_cons_succ,
      List.getElem?_append_left (by rw [length_written]; exact inName)]
    rfl
  have split := (isCut_escaped isName rest).rewrite_append environment
  rw [List.cons_append] at split
  rw [split, List.length_cons, List.range_succ_eq_map, List.flatMap_cons, dropped,
    List.flatMap_map, List.nil_append]
  congr 1
  calc (List.range (written name).length).flatMap _
      = (List.range (written name).length).flatMap
          fun position => (written name)[position]?.toList := by
        apply List.flatMap_congr
        intro position member
        rw [List.mem_range, length_written] at member
        exact kept position member
    _ = written name := flatMap_range_getElem? (written name)

end Parts

section Outcome

theorem rewrite_of_replace {result : List Char} (text : List Char)
    (replaced : replace environment text = .ok result) : rewrite environment text = result := by
  induction text using Reference.induction generalizing result with
  | nil => exact Except.ok.inj replaced
  | escaped name rest isName ih =>
      rw [replace_escaped isName, map_eq_ok_iff] at replaced
      obtain ⟨following, same, rfl⟩ := replaced
      rw [rewrite_escaped isName, ih same]
  | reference name rest isName ih =>
      rw [replace_written isName] at replaced
      cases found : value? environment (String.ofList name) with
      | none =>
          rw [found] at replaced
          cases replaced
      | some value =>
          simp only [found, map_eq_ok_iff] at replaced
          obtain ⟨following, same, rfl⟩ := replaced
          rw [rewrite_written isName, textOf, lookup_of_value? found, ih same]
          rfl
  | literal character rest notEscaped notReference ih =>
      rw [replace_literal notEscaped notReference, map_eq_ok_iff] at replaced
      obtain ⟨following, same, rfl⟩ := replaced
      rw [rewrite_literal notEscaped notReference, ih same]

/-- The live reference at a position has no value, and all those before it have one. -/
structure IsFirstMissing (environment : Environment) (text : List Char) (position : Nat)
    (name : List Char) : Prop where
  live : IsLiveAt text position name
  missing : ¬ HasValue environment name
  earlier : ∀ before < position, ∀ other, IsLiveAt text before other → HasValue environment other

theorem IsCut.isLiveAt_append (cut : IsCut lead rest) :
    IsLiveAt (lead ++ rest) (lead.length + position) name ↔ IsLiveAt rest position name := by
  rw [isLiveAt_iff, isLiveAt_iff, cut.liveAt?_append]

/-- Where nothing is missing before a cut, the first that is missing is the one after it. -/
theorem IsCut.exists_isFirstMissing (cut : IsCut lead rest) {law : List Char → Prop}
    (present : ∀ before < lead.length, ∀ other, IsLiveAt (lead ++ rest) before other →
      HasValue environment other) :
    (∃ position name, law name ∧ IsFirstMissing environment (lead ++ rest) position name) ↔
      ∃ position name, law name ∧ IsFirstMissing environment rest position name := by
  constructor
  · rintro ⟨position, name, lawful, live, missing, earlier⟩
    by_cases inLead : position < lead.length
    · exact absurd (present position inLead name live) missing
    · obtain ⟨offset, rfl⟩ := Nat.exists_eq_add_of_le (Nat.not_lt.1 inLead)
      refine ⟨offset, name, lawful, cut.isLiveAt_append.1 live, missing, ?_⟩
      intro before smaller other otherLive
      exact earlier (lead.length + before) (by omega) other (cut.isLiveAt_append.2 otherLive)
  · rintro ⟨offset, name, lawful, live, missing, earlier⟩
    refine ⟨lead.length + offset, name, lawful, cut.isLiveAt_append.2 live, missing, ?_⟩
    intro before smaller other otherLive
    by_cases inLead : before < lead.length
    · exact present before inLead other otherLive
    · obtain ⟨further, rfl⟩ := Nat.exists_eq_add_of_le (Nat.not_lt.1 inLead)
      exact earlier further (by omega) other (cut.isLiveAt_append.1 otherLive)

theorem isLiveAt_written (isName : IsName name) {rest : List Char}
    (inName : position < size name) :
    IsLiveAt (written name ++ rest) position other ↔ position = 0 ∧ other = name := by
  rw [isLiveAt_iff, liveAt?]
  rcases Nat.eq_zero_or_pos position with rfl | positive
  · rw [List.drop_zero, name?_written isName]
    simp [followsDollar, eq_comm]
  · rw [name?_drop_written isName rest positive inName, ite_self]
    simp [Nat.ne_of_gt positive]

/-- The replacement fails with the name of the first live reference without a value. -/
theorem replace_eq_error_iff {missing : String} (text : List Char) :
    replace environment text = .error missing ↔
      ∃ position name, String.ofList name = missing ∧
        IsFirstMissing environment text position name := by
  induction text using Reference.induction with
  | nil =>
      have isOk : replace environment [] ≠ .error missing := by
        rw [replace]
        intro same
        cases same
      refine iff_of_false isOk ?_
      rintro ⟨position, name, -, live, -⟩
      exact not_isLiveAfter_nil (isLive_iff.1 (isLive_iff_exists.2 ⟨position, live⟩))
  | escaped name rest isName ih =>
      have noneLive : ∀ before < ('$' :: written name).length, ∀ other,
          IsLiveAt ('$' :: written name ++ rest) before other → HasValue environment other := by
        intro before inLead other live
        rw [List.length_cons, length_written] at inLead
        rw [isLiveAt_iff, List.cons_append, liveAt?_escaped isName rest (by omega)] at live
        cases live
      rw [replace_escaped isName, map_eq_error_iff, ih, ← List.cons_append]
      exact ((isCut_escaped isName rest).exists_isFirstMissing noneLive).symm
  | reference name rest isName ih =>
      rw [replace_written isName]
      cases found : value? environment (String.ofList name) with
      | none =>
          have unset : ¬ HasValue environment name := by
            rw [← exists_value?_iff, found]
            simp
          have atStart : IsLiveAt (written name ++ rest) 0 name :=
            (isLiveAt_written isName (by simp [size])).2 ⟨rfl, rfl⟩
          constructor
          · intro same
            exact ⟨0, name, Except.error.inj same, atStart, unset,
              fun before inLead => absurd inLead (Nat.not_lt_zero before)⟩
          · rintro ⟨position, other, rfl, live, -, earlier⟩
            rcases Nat.eq_zero_or_pos position with rfl | positive
            · rw [((isLiveAt_written isName (by simp [size])).1 live).2]
            · exact absurd (earlier 0 positive name atStart) unset
      | some value =>
          have set : ∀ before < (written name).length, ∀ other,
              IsLiveAt (written name ++ rest) before other → HasValue environment other := by
            intro before inLead other live
            rw [length_written] at inLead
            rw [((isLiveAt_written isName inLead).1 live).2]
            exact exists_value?_iff.1 ⟨value, found⟩
          rw [(isCut_written isName rest).exists_isFirstMissing set, ← ih]
          exact map_eq_error_iff
  | literal character rest notEscaped notReference ih =>
      have noneLive : ∀ before < [character].length, ∀ other,
          IsLiveAt ([character] ++ rest) before other → HasValue environment other := by
        intro before inLead other live
        obtain rfl : before = 0 := by simpa using inLead
        rw [isLiveAt_iff, liveAt?, List.drop_zero, List.singleton_append, notReference,
          ite_self] at live
        cases live
      rw [replace_literal notEscaped notReference, map_eq_error_iff, ih]
      exact ((isCut_literal notEscaped notReference).exists_isFirstMissing noneLive).symm

end Outcome

end MessageBlocks.Reference
