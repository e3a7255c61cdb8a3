import MessageBlocks.Proofs.Text.Selection

/-!
# Entities

An entity stands for a character that could open or close a control token. Reading a
text with entities from left to right undoes the escape, and in an escaped text every
`&` is the start of an entity. A text like that can be cut and joined without making
or breaking an entity, so it may be read in parts.
-/

namespace MessageBlocks.Text

/-- The entities: the written forms of `&`, `<` and `>`. -/
def entities : List (List Char) :=
  [['&', 'a', 'm', 'p', ';'], ['&', 'l', 't', ';'], ['&', 'g', 't', ';']]

/-- Undo the escape in one pass from left to right. -/
def unescape : List Char → List Char
  | '&' :: 'a' :: 'm' :: 'p' :: ';' :: rest => '&' :: unescape rest
  | '&' :: 'l' :: 't' :: ';' :: rest => '<' :: unescape rest
  | '&' :: 'g' :: 't' :: ';' :: rest => '>' :: unescape rest
  | character :: rest => character :: unescape rest
  | [] => []

/-- Every `&` of the text starts an entity. -/
def IsEscaped (text : List Char) : Prop :=
  ∀ rest, '&' :: rest <:+ text → ∃ entity ∈ entities, entity <+: '&' :: rest

theorem isEscaped_cons {character : Char} {rest : List Char} :
    IsEscaped (character :: rest) ↔
      (character = '&' → ∃ entity ∈ entities, entity <+: character :: rest) ∧ IsEscaped rest := by
  constructor
  · intro escaped
    refine ⟨?_, fun further suffix => escaped further (suffix.trans (List.suffix_cons _ _))⟩
    rintro rfl
    exact escaped rest (List.suffix_refl _)
  · rintro ⟨first, escaped⟩ further suffix
    rcases List.suffix_cons_iff.1 suffix with whole | inRest
    · obtain ⟨rfl, rfl⟩ := List.cons.inj whole
      exact first rfl
    · exact escaped further inRest

theorem isEscaped_of_notMem {text : List Char} (plain : '&' ∉ text) : IsEscaped text :=
  fun _ suffix => absurd (suffix.subset List.mem_cons_self) plain

namespace IsEscaped

theorem append {first second : List Char} (escaped : IsEscaped first) (next : IsEscaped second) :
    IsEscaped (first ++ second) := by
  induction first with
  | nil => exact next
  | cons character rest ih =>
      obtain ⟨starts, restEscaped⟩ := isEscaped_cons.1 escaped
      refine isEscaped_cons.2 ⟨fun isAmpersand => ?_, ih restEscaped⟩
      obtain ⟨entity, among, leads⟩ := starts isAmpersand
      exact ⟨entity, among, leads.trans (List.prefix_append (character :: rest) second)⟩

theorem of_suffix {text rest : List Char} (escaped : IsEscaped text) (suffix : rest <:+ text) :
    IsEscaped rest :=
  fun further inRest => escaped further (inRest.trans suffix)

/-- A text that is put together from lines is escaped if all lines are. -/
theorem unlines {rows : List (List Char)} (escaped : ∀ row ∈ rows, IsEscaped row) :
    IsEscaped (Text.unlines rows) := by
  induction rows with
  | nil => exact isEscaped_of_notMem List.not_mem_nil
  | cons row rest ih =>
      have restEscaped := ih fun other member => escaped other (List.mem_cons_of_mem _ member)
      have first := escaped row List.mem_cons_self
      cases rest with
      | nil => simpa [Text.unlines] using first
      | cons next rest =>
          rw [unlines_cons_cons]
          have following : IsEscaped ('\n' :: Text.unlines (next :: rest)) :=
            isEscaped_cons.2 ⟨fun isAmpersand => absurd isAmpersand (by decide), restEscaped⟩
          exact first.append following

end IsEscaped

theorem isEscaped_escapeChar (character : Char) : IsEscaped (escapeChar character) := by
  rw [escapeChar]
  split
  · next isAmpersand =>
      refine isEscaped_cons.2 ⟨fun _ => ⟨_, List.mem_cons_self, List.prefix_rfl⟩, ?_⟩
      exact isEscaped_of_notMem (by decide)
  · next notAmpersand =>
      split
      · refine isEscaped_cons.2 ⟨fun _ => ⟨['&', 'l', 't', ';'], by decide, List.prefix_rfl⟩, ?_⟩
        exact isEscaped_of_notMem (by decide)
      · split
        · refine isEscaped_cons.2 ⟨fun _ => ⟨['&', 'g', 't', ';'], by decide, List.prefix_rfl⟩, ?_⟩
          exact isEscaped_of_notMem (by decide)
        · exact isEscaped_of_notMem (by simpa [eq_comm] using notAmpersand)

theorem isEscaped_escape (text : List Char) : IsEscaped (escape text) := by
  induction text with
  | nil => exact isEscaped_of_notMem List.not_mem_nil
  | cons character rest ih => exact (isEscaped_escapeChar character).append ih

theorem unescape_cons {character : Char} (notAmpersand : character ≠ '&') (rest : List Char) :
    unescape (character :: rest) = character :: unescape rest := by
  rw [unescape.eq_def]
  split <;> simp_all

theorem unescape_of_notMem {text : List Char} (plain : '&' ∉ text) : unescape text = text := by
  induction text with
  | nil => rfl
  | cons character rest ih =>
      rw [List.mem_cons, not_or] at plain
      rw [unescape_cons (Ne.symm plain.1), ih plain.2]

/-- An escaped text can be read by itself, whatever follows it. -/
theorem unescape_append {first : List Char} (escaped : IsEscaped first) (second : List Char) :
    unescape (first ++ second) = unescape first ++ unescape second := by
  fun_induction unescape first with
  | case1 rest ih =>
      simp [unescape, ih (escaped.of_suffix ⟨['&', 'a', 'm', 'p', ';'], rfl⟩)]
  | case2 rest ih =>
      simp [unescape, ih (escaped.of_suffix ⟨['&', 'l', 't', ';'], rfl⟩)]
  | case3 rest ih =>
      simp [unescape, ih (escaped.of_suffix ⟨['&', 'g', 't', ';'], rfl⟩)]
  | case4 character rest notAmp notLt notGt ih =>
      obtain ⟨starts, restEscaped⟩ := isEscaped_cons.1 escaped
      have notAmpersand : character ≠ '&' := by
        intro isAmpersand
        obtain ⟨entity, among, further, same⟩ := starts isAmpersand
        simp only [entities, List.mem_cons, List.not_mem_nil, or_false] at among
        rcases among with rfl | rfl | rfl
        · exact notAmp further isAmpersand (List.cons.inj same).2.symm
        · exact notLt further isAmpersand (List.cons.inj same).2.symm
        · exact notGt further isAmpersand (List.cons.inj same).2.symm
      rw [List.cons_append, unescape_cons notAmpersand, ih restEscaped, List.cons_append]
  | case5 => rfl

/-- Escaped lines can be read one by one. -/
theorem unescape_unlines {rows : List (List Char)} (escaped : ∀ row ∈ rows, IsEscaped row) :
    unescape (unlines rows) = unlines (rows.map unescape) := by
  induction rows with
  | nil => rfl
  | cons row rest ih =>
      obtain ⟨rowEscaped, restEscaped⟩ := List.forall_mem_cons.1 escaped
      cases rest with
      | nil => simp [unlines]
      | cons next rest =>
          rw [unlines_cons_cons, unescape_append rowEscaped, unescape_cons (by decide),
            ih restEscaped]
          simp [unlines_cons_cons]

theorem unescape_escapeChar (character : Char) : unescape (escapeChar character) = [character] := by
  rw [escapeChar]
  split
  · next isAmpersand => simp [unescape, isAmpersand]
  · next notAmpersand =>
      split
      · next isOpening => simp [unescape, isOpening]
      · split
        · next isClosing => simp [unescape, isClosing]
        · rw [unescape_cons notAmpersand]
          rfl

theorem unescape_escape (text : List Char) : unescape (escape text) = text := by
  induction text with
  | nil => rfl
  | cons character rest ih =>
      have split : escape (character :: rest) = escapeChar character ++ escape rest := rfl
      rw [split, unescape_append (isEscaped_escapeChar character), unescape_escapeChar, ih]
      rfl

end MessageBlocks.Text
