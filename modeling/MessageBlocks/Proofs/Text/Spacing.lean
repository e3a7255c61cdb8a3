import MessageBlocks.Proofs.Text.Gaps
import MessageBlocks.Proofs.Trimming

/-!
# Spacing of trimmed lines

A text has the gaps of its lines, and a line keeps its gaps when it is trimmed. Where no line starts
or ends with a space, the only spaces next to each other are those of gaps.
-/

namespace MessageBlocks

namespace Text

variable {text row : List Char} {rows : List (List Char)}

theorem hasGap_append_lineFeed (first second : List Char) :
    HasGap (first ++ '\n' :: second) ↔ HasGap first ∨ HasGap second := by
  rw [HasGap, HasGap, walk_append]
  cases reached : walk .margin first with
  | none => simp
  | some stance => simp [HasGap, walk_lineFeed]

theorem not_hasGap_nil : ¬ HasGap [] :=
  nofun

/-- A text of spaces and line feeds has nothing that could stand around a gap. -/
theorem not_hasGap_of_blank
    (blank : text.all (fun character => character == ' ' || character == '\n') = true) :
    ¬ HasGap text := by
  rw [hasGap_iff]
  rintro ⟨before, after, ⟨count, -, rfl⟩, ends, -⟩
  obtain ⟨last, isLast, ink⟩ := (Option.any_eq_true _ _).1 ends
  have member : last ∈ before ++ List.replicate count ' ' ++ after := by
    simp [List.mem_of_getLast? isLast]
  have notInk := List.all_eq_true.1 blank last member
  simp only [isInk, Bool.and_eq_true, bne_iff_ne] at ink
  simp [ink] at notInk

/-- What starts with a line feed is apart from what stands before it. -/
theorem hasGap_append_opened (first : List Char) {second : List Char}
    (opens : ∀ character ∈ second.head?, character = '\n') :
    HasGap (first ++ second) ↔ HasGap first ∨ HasGap second := by
  cases second with
  | nil => rw [List.append_nil, or_iff_left not_hasGap_nil]
  | cons character rest =>
      rw [opens character rfl, hasGap_append_lineFeed]
      rfl

theorem hasGap_concat_lineFeed (text : List Char) : HasGap (text ++ ['\n']) ↔ HasGap text := by
  rw [hasGap_append_lineFeed, or_iff_left not_hasGap_nil]

theorem hasGap_unlines : HasGap (unlines rows) ↔ ∃ row ∈ rows, HasGap row := by
  induction rows with
  | nil => simp [HasGap, unlines, walk]
  | cons row rest ih =>
      cases rest with
      | nil => simp [unlines]
      | cons next rest =>
          rw [unlines_cons_cons, hasGap_append_lineFeed, ih]
          simp only [List.mem_cons, exists_eq_or_imp]

/-- Spaces at the ends of a line are not between anything. -/
theorem hasGap_spaces_around (before after : Nat) (line : List Char) :
    HasGap (List.replicate before ' ' ++ line ++ List.replicate after ' ') ↔ HasGap line := by
  have margin : Stance.behindSpaces .margin before = .margin := by
    induction before with
    | zero => rfl
    | succ before ih => exact ih
  rw [HasGap, List.append_assoc, walk_append, walk_spaces, margin, Option.bind_some, walk_append,
    HasGap]
  cases walk .margin line with
  | none => simp
  | some stance => simp [walk_spaces]

/-- Line feeds around a text change no gap. -/
theorem hasGap_frame (text : List Char) : HasGap ('\n' :: text ++ ['\n']) ↔ HasGap text := by
  rw [hasGap_concat_lineFeed]
  rfl

/-- A text with line feeds at both ends, as blocks have them. -/
structure IsFramed (text : List Char) : Prop where
  opens : text.head? = some '\n'
  closes : text.getLast? = some '\n'

/-- What has a line feed at both ends is apart from what stands around it. -/
theorem IsFramed.hasGap_iff {block : List Char} (isFramed : IsFramed block)
    (before after : List Char) :
    HasGap (before ++ block ++ after) ↔ HasGap before ∨ HasGap block ∨ HasGap after := by
  obtain ⟨init, same⟩ := List.getLast?_eq_some_iff.1 isFramed.closes
  have opens : ∀ character ∈ (block ++ after).head?, character = '\n' := by
    simp [List.head?_append, isFramed.opens]
  rw [List.append_assoc, hasGap_append_opened before opens, same, hasGap_concat_lineFeed,
    List.append_assoc, List.singleton_append, hasGap_append_lineFeed]

theorem ne_space_of_isInk {character : Char} (ink : isInk character = true) : character ≠ ' ' := by
  rintro rfl
  cases ink

theorem eq_replicate_of_spaces {spaces : List Char}
    (all : ∀ character ∈ spaces, (character == ' ') = true) :
    spaces = List.replicate spaces.length ' ' :=
  List.eq_replicate_iff.2 ⟨rfl, fun character member => eq_of_beq (all character member)⟩

theorem hasGap_trimSpaces (line : List Char) : HasGap (trimSpaces line) ↔ HasGap line := by
  obtain ⟨top, bottom, onlyTop, onlyBottom, whole⟩ := exists_around_trimmed (· == ' ') line
  conv_rhs => rw [whole, eq_replicate_of_spaces onlyTop, eq_replicate_of_spaces onlyBottom]
  rw [trimSpaces, trimBy_eq_trimmed, hasGap_spaces_around]

/-- A line without a space at either end. -/
def IsTrimmed (line : List Char) : Prop :=
  IsTight (· == ' ') line

theorem isTrimmed_nil : IsTrimmed [] :=
  ⟨nofun, nofun⟩

theorem isTrimmed_trimSpaces (line : List Char) : IsTrimmed (trimSpaces line) := by
  rw [trimSpaces, trimBy_eq_trimmed]
  exact isTight_trimmed _ line

/-- Text that ends with at most one space makes no gap with a trimmed line behind it. -/
theorem hasGap_lead {lead : List Char} {stance : Stance} (reached : walk .margin lead = some stance)
    (narrow : stance ≠ .gap) {line : List Char} (isTrimmed : IsTrimmed line) :
    HasGap (lead ++ line) ↔ HasGap line := by
  rw [HasGap, walk_append, reached, Option.bind_some, HasGap]
  cases line with
  | nil => simp [walk]
  | cons character rest =>
      have notSpace : character ≠ ' ' := by simpa using isTrimmed.first character rfl
      by_cases isFeed : character = '\n'
      · rw [isFeed, walk_lineFeed, walk_lineFeed]
      · have ink : isInk character = true := by simp [isInk, notSpace, isFeed]
        rw [walk_of_isInk ink, walk_of_isInk ink, if_neg narrow, if_neg (by decide)]

theorem walk_of_all_isInk {lead : List Char} (ink : ∀ character ∈ lead, isInk character = true) :
    walk .margin lead = some (if lead.isEmpty then .margin else .ink) := by
  cases lead with
  | nil => rfl
  | cons character rest =>
      have further (rest : List Char) (ink : ∀ character ∈ rest, isInk character = true) :
          walk .ink rest = some .ink := by
        induction rest with
        | nil => rfl
        | cons other rest ih =>
            obtain ⟨first, others⟩ := List.forall_mem_cons.1 ink
            rw [walk_of_isInk first, if_neg (by decide), ih others]
      obtain ⟨first, others⟩ := List.forall_mem_cons.1 ink
      rw [walk_of_isInk first, if_neg (by decide), further rest others]
      rfl

section Ink

variable {lead line : List Char} (ink : ∀ character ∈ lead, isInk character = true)

include ink

theorem isTrimmed_prepend (isTrimmed : IsTrimmed line) : IsTrimmed (lead ++ line) :=
  isTrimmed.prepend fun character member => by
    simpa using ne_space_of_isInk (ink character member)

theorem isTrimmed_of_ink : IsTrimmed lead := by
  have alone := isTrimmed_prepend ink isTrimmed_nil
  rwa [List.append_nil] at alone

/-- A word and a trimmed line, with a space in between. -/
theorem isTrimmed_word (some : lead ≠ []) (shown : line ≠ []) (isTrimmed : IsTrimmed line) :
    IsTrimmed (lead ++ ' ' :: line) := by
  have joined := (isTrimmed_of_ink ink).join isTrimmed some shown [' ']
  rwa [List.append_assoc, List.singleton_append] at joined

theorem hasGap_prepend (isTrimmed : IsTrimmed line) : HasGap (lead ++ line) ↔ HasGap line := by
  refine hasGap_lead (walk_of_all_isInk ink) ?_ isTrimmed
  split <;> decide

theorem not_hasGap_of_ink : ¬ HasGap lead := by
  have alone := hasGap_prepend ink isTrimmed_nil
  rw [List.append_nil] at alone
  exact fun gap => not_hasGap_nil (alone.1 gap)

theorem hasGap_word (isTrimmed : IsTrimmed line) : HasGap (lead ++ ' ' :: line) ↔ HasGap line := by
  have reached : walk .margin (lead ++ [' ']) =
      some (if lead.isEmpty then .margin else .space) := by
    rw [walk_append, walk_of_all_isInk ink]
    split <;> rfl
  have behind := hasGap_lead reached (by split <;> decide) isTrimmed
  rwa [List.append_assoc, List.singleton_append] at behind

end Ink

theorem exists_rest_of_spaces (text : List Char) : ∃ count rest,
    text = List.replicate count ' ' ++ rest ∧ ∀ first ∈ rest.head?, first ≠ ' ' := by
  induction text with
  | nil => exact ⟨0, [], rfl, nofun⟩
  | cons character rest ih =>
      by_cases isSpace : character = ' '
      · obtain ⟨count, further, rfl, apart⟩ := ih
        exact ⟨count + 1, further, by rw [isSpace]; rfl, apart⟩
      · refine ⟨0, character :: rest, rfl, fun first isFirst => ?_⟩
        obtain rfl := Option.some.inj isFirst
        exact isSpace

theorem exists_init_of_spaces (text : List Char) : ∃ init count,
    text = init ++ List.replicate count ' ' ∧ ∀ last ∈ init.getLast?, last ≠ ' ' := by
  obtain ⟨count, rest, same, apart⟩ := exists_rest_of_spaces text.reverse
  refine ⟨rest.reverse, count, ?_, by rwa [List.getLast?_reverse]⟩
  rw [← List.reverse_reverse text, same, List.reverse_append, List.reverse_replicate]

/-- Two spaces next to each other in a trimmed line belong to a gap. -/
theorem hasGap_of_isTrimmed {before after : List Char}
    (oneLine : '\n' ∉ before ++ ' ' :: ' ' :: after)
    (isTrimmed : IsTrimmed (before ++ ' ' :: ' ' :: after)) :
    HasGap (before ++ ' ' :: ' ' :: after) := by
  obtain ⟨init, left, rfl, endsApart⟩ := exists_init_of_spaces before
  obtain ⟨right, rest, rfl, startsApart⟩ := exists_rest_of_spaces after
  have whole : init ++ List.replicate left ' ' ++ ' ' :: ' ' :: (List.replicate right ' ' ++ rest) =
      init ++ List.replicate (left + 2 + right) ' ' ++ rest := by
    simp only [List.replicate_add, List.append_assoc]
    rfl
  rw [whole] at oneLine isTrimmed ⊢
  obtain ⟨⟨notInit, -⟩, notRest⟩ : ('\n' ∉ init ∧ _) ∧ '\n' ∉ rest := by
    simpa only [List.mem_append, not_or] using oneLine
  refine hasGap_iff.2 ⟨init, rest, ⟨_, by omega, rfl⟩, ?_, ?_⟩
  · cases isLast : init.getLast? with
    | none =>
        have opens := isTrimmed.first ' ' (by
          simp [List.getLast?_eq_none_iff.1 isLast, List.head?_append, List.head?_replicate])
        cases opens
    | some last =>
        have notFeed : last ≠ '\n' := fun same => notInit (same ▸ List.mem_of_getLast? isLast)
        simp [isInk, endsApart last isLast, notFeed]
  · cases isFirst : rest.head? with
    | none =>
        have closes := isTrimmed.last ' ' (by
          simp [List.head?_eq_none_iff.1 isFirst, List.getLast?_append, List.getLast?_replicate])
        cases closes
    | some first =>
        have notFeed : first ≠ '\n' := fun same => notRest (same ▸ List.mem_of_head? isFirst)
        simp [isInk, startsApart first isFirst, notFeed]

theorem exists_lines_cons (text : List Char) : ∃ first rest, lines text = first :: rest :=
  List.exists_cons_of_ne_nil (List.splitOn_ne_nil '\n' text)

theorem lines_cons {character : Char} (notFeed : character ≠ '\n') {first : List Char}
    {rest : List (List Char)} (same : lines text = first :: rest) :
    lines (character :: text) = (character :: first) :: rest := by
  have oneLine : '\n' ∉ [character] := by simpa using Ne.symm notFeed
  have split := lines_append oneLine text
  rwa [same] at split

/-- Two spaces next to each other stand on one line. -/
theorem exists_line_of_spaces (before after : List Char) :
    ∃ row ∈ lines (before ++ ' ' :: ' ' :: after),
      ∃ init rest, row = init ++ ' ' :: ' ' :: rest := by
  induction before with
  | nil =>
      obtain ⟨first, rest, same⟩ := exists_lines_cons after
      have notFeed : ' ' ≠ '\n' := by decide
      have split := lines_cons notFeed (lines_cons notFeed same)
      rw [List.nil_append, split]
      exact ⟨_, List.mem_cons_self, [], first, rfl⟩
  | cons character before ih =>
      obtain ⟨row, member, init, further, rfl⟩ := ih
      by_cases isFeed : character = '\n'
      · rw [isFeed, List.cons_append, lines_lineFeed_cons]
        exact ⟨_, List.mem_cons_of_mem _ member, init, further, rfl⟩
      · obtain ⟨first, rest, same⟩ := exists_lines_cons (before ++ ' ' :: ' ' :: after)
        rw [List.cons_append, lines_cons isFeed same]
        rw [same] at member
        rcases List.mem_cons.1 member with isFirst | inRest
        · exact ⟨_, List.mem_cons_self, character :: init, further, by rw [← isFirst]; rfl⟩
        · exact ⟨_, List.mem_cons_of_mem _ inRest, init, further, rfl⟩

/-- In a text of trimmed lines the spaces that are next to each other are those of gaps. -/
theorem adjacent_iff_hasGap (isTrimmed : ∀ row ∈ lines text, IsTrimmed row) :
    [' ', ' '] <:+: text ↔ HasGap text := by
  constructor
  · rintro ⟨before, after, same⟩
    have split : text = before ++ ' ' :: ' ' :: after := by rw [← same]; simp
    obtain ⟨row, member, init, rest, rfl⟩ := exists_line_of_spaces before after
    rw [← split] at member
    rw [← unlines_lines text, hasGap_unlines]
    exact ⟨_, member, hasGap_of_isTrimmed (lineFeed_notMem_lines text _ member)
      (isTrimmed _ member)⟩
  · intro hasGap
    obtain ⟨before, after, ⟨count, many, rfl⟩, -, -⟩ := hasGap_iff.1 hasGap
    obtain ⟨more, rfl⟩ := Nat.exists_eq_add_of_le many
    exact ⟨before, List.replicate more ' ' ++ after, by simp [List.replicate_add]⟩

end Text

end MessageBlocks
