import MessageBlocks.Proofs.Text.Spacing

/-!
# Tidy texts

Plain text is trimmed line by line and then at its ends, where it loses whatever is blank. It is the
same to trim it at its ends first. So its gaps are those of the text as it was, as far as something
visible stands on both sides of them.
-/

namespace MessageBlocks

namespace Text

variable {text : List Char}

/-- A text without the spaces around its lines. -/
def trimRows (text : List Char) : List Char :=
  unlines ((lines text).map trimSpaces)

theorem lines_trimRows (text : List Char) :
    lines (trimRows text) = (lines text).map trimSpaces := by
  obtain ⟨first, rest, same⟩ := exists_lines_cons text
  refine lines_unlines (by simp [same]) ?_
  rw [List.forall_mem_map]
  exact fun row member inRow => lineFeed_notMem_lines text row member (mem_of_mem_trimBy inRow)

theorem isTrimmed_trimRows (text : List Char) : ∀ row ∈ lines (trimRows text), IsTrimmed row := by
  rw [lines_trimRows, List.forall_mem_map]
  exact fun row _ => isTrimmed_trimSpaces row

theorem hasGap_trimRows (text : List Char) : HasGap (trimRows text) ↔ HasGap text := by
  conv_rhs => rw [← unlines_lines text, hasGap_unlines]
  rw [trimRows, hasGap_unlines]
  simp only [List.mem_map, exists_exists_and_eq_and, hasGap_trimSpaces]

theorem trimSpaces_space (line : List Char) : trimSpaces (' ' :: line) = trimSpaces line := by
  rw [trimSpaces, trimSpaces, trimBy_eq_trimmed, trimBy_eq_trimmed]
  exact trimmed_append_of_blank_left (List.forall_mem_singleton.2 rfl) line

/-- What is not a space stays in front of a line, and so do the spaces behind it. -/
theorem trimSpaces_cons {character : Char} (notSpace : character ≠ ' ') (line : List Char) :
    ∃ count, trimSpaces (character :: line) =
      character :: List.replicate count ' ' ++ trimSpaces line := by
  rw [trimSpaces, trimSpaces, trimBy_eq_trimmed, trimBy_eq_trimmed]
  obtain ⟨top, bottom, onlyTop, onlyBottom, whole⟩ := exists_around_trimmed (· == ' ') line
  have opens : (character == ' ') = false := by simpa using notSpace
  by_cases none : trimmed (· == ' ') line = []
  · refine ⟨0, ?_⟩
    have all := trimmed_eq_nil_iff.1 none
    have tight : IsTight (· == ' ') [character] := by constructor <;> simpa using notSpace
    rw [none]
    exact trimmed_of_isTight tight (List.forall_mem_nil _) all
  · refine ⟨top.length, ?_⟩
    have tight : IsTight (· == ' ') (character :: top ++ trimmed (· == ' ') line) := by
      constructor
      · simpa using notSpace
      · rw [List.getLast?_append_of_ne_nil _ none]
        exact (isTight_trimmed (· == ' ') line).last
    have shown := trimmed_of_isTight tight (List.forall_mem_nil _) onlyBottom
    rw [← eq_replicate_of_spaces onlyTop, ← shown]
    conv_lhs => rw [whole]
    simp

theorem unlines_append_cons (lead row : List Char) (rest : List (List Char)) :
    unlines ((lead ++ row) :: rest) = lead ++ unlines (row :: rest) := by
  cases rest with
  | nil => simp [unlines]
  | cons next rest => rw [unlines_cons_cons, unlines_cons_cons, List.append_assoc]

/-- A character in front of a text stays or goes without any other change of what comes next. -/
theorem trimRows_cons (character : Char) (text : List Char) :
    ∃ lead, trimRows (character :: text) = lead ++ trimRows text ∧
      (character ≠ ' ' → lead.head? = some character) ∧
      ∀ other ∈ lead, other = character ∨ other = ' ' := by
  obtain ⟨first, rest, same⟩ := exists_lines_cons text
  by_cases isFeed : character = '\n'
  · refine ⟨['\n'], ?_, fun _ => by rw [isFeed]; rfl,
      List.forall_mem_singleton.2 (.inl isFeed.symm)⟩
    rw [trimRows, isFeed, lines_lineFeed_cons, trimRows, same]
    exact unlines_cons_cons _ _ _
  · rw [trimRows, lines_cons isFeed same, trimRows, same, List.map_cons, List.map_cons]
    by_cases isSpace : character = ' '
    · exact ⟨[], by rw [isSpace, trimSpaces_space]; rfl, fun notSpace => absurd isSpace notSpace,
        List.forall_mem_nil _⟩
    · obtain ⟨count, shown⟩ := trimSpaces_cons isSpace first
      refine ⟨character :: List.replicate count ' ', ?_, fun _ => rfl, ?_⟩
      · rw [shown, unlines_append_cons]
      · exact List.forall_mem_cons.2 ⟨.inl rfl, fun other member =>
          .inr (List.eq_of_mem_replicate member)⟩

theorem trimRows_append (first text : List Char) :
    ∃ lead, trimRows (first ++ text) = lead ++ trimRows text ∧
      ∀ character ∈ lead, character ∈ first ∨ character = ' ' := by
  induction first with
  | nil => exact ⟨[], rfl, List.forall_mem_nil _⟩
  | cons character rest ih =>
      obtain ⟨lead, same, among⟩ := ih
      obtain ⟨opening, sameFirst, -, amongFirst⟩ := trimRows_cons character (rest ++ text)
      refine ⟨opening ++ lead, by rw [List.cons_append, sameFirst, same, List.append_assoc], ?_⟩
      refine List.forall_mem_append.2 ⟨fun other member => ?_, fun other member => ?_⟩
      · exact (amongFirst other member).imp_left (by rintro rfl; exact List.mem_cons_self)
      · exact (among other member).imp_left (List.mem_cons_of_mem _)

theorem unlines_concat (rows : List (List Char)) (some : rows ≠ []) (row : List Char) :
    unlines (rows ++ [row]) = unlines rows ++ '\n' :: row := by
  induction rows with
  | nil => exact absurd rfl some
  | cons first rest ih =>
      cases rest with
      | nil => simp [unlines, List.intercalate_cons_cons]
      | cons next rest =>
          rw [List.cons_append, List.cons_append, unlines_cons_cons, ← List.cons_append,
            ih (List.cons_ne_nil _ _), unlines_cons_cons, List.append_assoc, List.cons_append]

theorem unlines_reverse (rows : List (List Char)) :
    (unlines rows).reverse = unlines (rows.map List.reverse).reverse := by
  induction rows with
  | nil => rfl
  | cons row rest ih =>
      cases rest with
      | nil => simp [unlines]
      | cons next rest =>
          rw [unlines_cons_cons, List.map_cons, List.reverse_cons, unlines_concat _ (by simp), ← ih]
          simp

theorem lines_reverse (text : List Char) :
    lines text.reverse = ((lines text).map List.reverse).reverse := by
  obtain ⟨first, rest, same⟩ := exists_lines_cons text
  conv_lhs => rw [← unlines_lines text, unlines_reverse]
  refine lines_unlines (by simp [same]) fun row member => ?_
  obtain ⟨line, lineMember, rfl⟩ := List.mem_map.1 (List.mem_reverse.1 member)
  exact fun inRow => lineFeed_notMem_lines text line lineMember (List.mem_reverse.1 inRow)

theorem trimSpaces_reverse (line : List Char) :
    trimSpaces line.reverse = (trimSpaces line).reverse := by
  rw [trimSpaces, trimSpaces, trimBy_eq_trimmed, trimBy_eq_trimmed, trimmed_reverse]

theorem trimRows_reverse (text : List Char) : trimRows text.reverse = (trimRows text).reverse := by
  rw [trimRows, trimRows, lines_reverse, unlines_reverse, List.map_reverse, List.map_map,
    List.map_map]
  congr 3
  exact funext trimSpaces_reverse

theorem isTight_trimRows (tight : IsTight isBlank text) : IsTight isBlank (trimRows text) := by
  have first {text : List Char} (opens : ∀ character ∈ text.head?, isBlank character = false) :
      ∀ character ∈ (trimRows text).head?, isBlank character = false := by
    cases text with
    | nil => nofun
    | cons character rest =>
        have shown := opens character rfl
        obtain ⟨lead, same, starts, -⟩ := trimRows_cons character rest
        obtain ⟨others, rfl⟩ := List.head?_eq_some_iff.1 (starts (by rintro rfl; cases shown))
        rw [same]
        intro other isFirst
        obtain rfl := Option.some.inj isFirst
        exact shown
  constructor
  · exact first tight.first
  · rw [← List.head?_reverse, ← trimRows_reverse]
    exact first tight.reverse.first

theorem trim_trimRows (text : List Char) : trim (trimRows text) = trimRows (trim text) := by
  rw [trim, trim, trimBy_eq_trimmed, trimBy_eq_trimmed]
  obtain ⟨top, bottom, blankTop, blankBottom, whole⟩ := exists_around_trimmed isBlank text
  obtain ⟨lead, sameLead, amongLead⟩ :=
    trimRows_append top (trimmed isBlank text ++ bottom)
  obtain ⟨tail, sameTail, amongTail⟩ :=
    trimRows_append bottom.reverse (trimmed isBlank text).reverse
  rw [← List.reverse_append, trimRows_reverse, trimRows_reverse] at sameTail
  have split : trimRows text = lead ++ trimRows (trimmed isBlank text) ++ tail.reverse := by
    conv_lhs => rw [whole, List.append_assoc, sameLead]
    rw [← List.reverse_reverse (trimRows (trimmed isBlank text ++ bottom)), sameTail]
    simp
  rw [split]
  refine trimmed_of_isTight (isTight_trimRows (isTight_trimmed isBlank text)) ?_ ?_
  · intro character member
    rcases amongLead character member with inTop | rfl
    · exact blankTop character inTop
    · rfl
  · intro character member
    rcases amongTail character (List.mem_reverse.1 member) with inBottom | rfl
    · exact blankBottom character (List.mem_reverse.1 inBottom)
    · rfl

/-- Whether something visible stands in a text. -/
def Shows (text : List Char) : Prop :=
  ∃ character ∈ text, isBlank character = false

theorem Shows.reverse (shows : Shows text) : Shows text.reverse := by
  obtain ⟨character, member, shown⟩ := shows
  exact ⟨character, List.mem_reverse.2 member, shown⟩

theorem Shows.append_left (shows : Shows text) (top : List Char) : Shows (top ++ text) := by
  obtain ⟨character, member, shown⟩ := shows
  exact ⟨character, List.mem_append_right top member, shown⟩

theorem Shows.append_right (shows : Shows text) (bottom : List Char) : Shows (text ++ bottom) := by
  obtain ⟨character, member, shown⟩ := shows
  exact ⟨character, List.mem_append_left bottom member, shown⟩

/-- A text that shows something starts with it once the blank characters in front are gone. -/
theorem Shows.exists_start (shows : Shows text) : ∃ top rest, text = top ++ rest ∧
    (∀ character ∈ top, isBlank character = true) ∧
      ∃ first, rest.head? = some first ∧ isBlank first = false := by
  obtain ⟨character, member, shown⟩ := shows
  refine ⟨_, _, List.takeWhile_append_dropWhile.symm, fun _ => List.mem_takeWhile_imp, ?_⟩
  have opens := List.head?_dropWhile_not isBlank text
  cases rest : text.dropWhile isBlank with
  | nil =>
      have blank := List.dropWhile_eq_nil_iff.1 rest character member
      rw [shown] at blank
      cases blank
  | cons first others =>
      rw [rest] at opens
      exact ⟨first, rfl, opens⟩

theorem Shows.exists_end (shows : Shows text) : ∃ rest bottom, text = rest ++ bottom ∧
    (∀ character ∈ bottom, isBlank character = true) ∧
      ∃ last, rest.getLast? = some last ∧ isBlank last = false := by
  obtain ⟨top, rest, same, blank, last, isLast, shown⟩ := shows.reverse.exists_start
  refine ⟨rest.reverse, top.reverse, ?_, by simpa using blank, last, ?_, shown⟩
  · rw [← List.reverse_append, ← same, List.reverse_reverse]
  · rwa [List.getLast?_reverse]

namespace GapAt

variable {before after : List Char}

theorem before_ne_nil (gap : GapAt text before after) : before ≠ [] := by
  obtain ⟨last, isLast, -⟩ := (Option.any_eq_true _ _).1 gap.last
  exact List.ne_nil_of_mem (List.mem_of_getLast? isLast)

theorem after_ne_nil (gap : GapAt text before after) : after ≠ [] := by
  obtain ⟨first, isFirst, -⟩ := (Option.any_eq_true _ _).1 gap.first
  exact List.ne_nil_of_mem (List.mem_of_head? isFirst)

/-- A gap stays one whatever stands around the text. -/
theorem around (gap : GapAt text before after) (top bottom : List Char) :
    GapAt (top ++ text ++ bottom) (top ++ before) (after ++ bottom) := by
  obtain ⟨count, many, same⟩ := gap.wide
  refine ⟨⟨count, many, by simp [same]⟩, ?_, ?_⟩
  · rw [List.getLast?_append_of_ne_nil _ gap.before_ne_nil]
    exact gap.last
  · rw [List.head?_append_of_ne_nil _ gap.after_ne_nil]
    exact gap.first

/-- In a text without blank ends something visible stands on both sides of a gap. -/
theorem shows_of_isTight (gap : GapAt text before after) (tight : IsTight isBlank text) :
    Shows before ∧ Shows after := by
  obtain ⟨count, -, same⟩ := gap.wide
  obtain ⟨opening, rest, rfl⟩ := List.exists_cons_of_ne_nil gap.before_ne_nil
  obtain ⟨init, closing, rfl⟩ := List.eq_nil_or_concat' after |>.resolve_left gap.after_ne_nil
  have isLast : text.getLast? = some closing := by
    rw [same, ← List.append_assoc, List.getLast?_concat]
  exact ⟨⟨opening, List.mem_cons_self, tight.first opening (by rw [same]; rfl)⟩,
    ⟨closing, by simp, tight.last closing isLast⟩⟩

/-- A gap with something visible on both sides is left when the text is trimmed. -/
theorem exists_of_trimmed (gap : GapAt text before after) (shows : Shows before)
    (showsNext : Shows after) :
    ∃ rest init, GapAt (trimmed isBlank text) rest init := by
  obtain ⟨⟨count, many, rfl⟩, last, first⟩ := gap
  obtain ⟨top, rest, rfl, blankTop, opening, isOpening, opens⟩ := shows.exists_start
  obtain ⟨init, bottom, rfl, blankBottom, closing, isClosing, closes⟩ := showsNext.exists_end
  have some : rest ≠ [] := List.ne_nil_of_mem (List.mem_of_head? isOpening)
  have someNext : init ≠ [] := List.ne_nil_of_mem (List.mem_of_getLast? isClosing)
  rw [List.getLast?_append_of_ne_nil _ some] at last
  rw [List.head?_append_of_ne_nil _ someNext] at first
  have tight : IsTight isBlank (rest ++ List.replicate count ' ' ++ init) := by
    constructor
    · rw [List.append_assoc, List.head?_append_of_ne_nil _ some, isOpening]
      exact fun item same => Option.some.inj same ▸ opens
    · rw [List.getLast?_append_of_ne_nil _ someNext, isClosing]
      exact fun item same => Option.some.inj same ▸ closes
  have shown := trimmed_of_isTight tight blankTop blankBottom
  refine ⟨rest, init, ⟨count, many, ?_⟩, last, first⟩
  rw [← shown]
  simp only [List.append_assoc]

end GapAt

/-- The gaps that are left when a text is trimmed have something visible on both sides. -/
theorem hasGap_trim : HasGap (trim text) ↔
    ∃ before after, GapAt text before after ∧ Shows before ∧ Shows after := by
  rw [trim, trimBy_eq_trimmed, hasGap_iff]
  constructor
  · rintro ⟨before, after, gap⟩
    obtain ⟨top, bottom, -, -, whole⟩ := exists_around_trimmed isBlank text
    obtain ⟨shows, showsNext⟩ := gap.shows_of_isTight (isTight_trimmed isBlank text)
    have wider := gap.around top bottom
    rw [← whole] at wider
    exact ⟨_, _, wider, shows.append_left top, showsNext.append_right bottom⟩
  · rintro ⟨before, after, gap, shows, showsNext⟩
    exact gap.exists_of_trimmed shows showsNext

/-- The spaces next to each other in a tidy text are those of the gaps with something visible on
both sides. -/
theorem adjacent_tidy_iff : [' ', ' '] <:+: Markup.tidy text ↔
    ∃ before after, GapAt text before after ∧ Shows before ∧ Shows after := by
  have tidy : Markup.tidy text = trimRows (trim text) := trim_trimRows text
  rw [tidy, adjacent_iff_hasGap (isTrimmed_trimRows _), hasGap_trimRows, hasGap_trim]

end Text

end MessageBlocks
