import MessageBlocks.Markup.Token

/-!
# Selected characters of a text

Trimming, marking and laying out a text drop, move and add spaces and marks. The
other characters of the text stay as they are. So a selection of characters that
contains none of those that are dropped or added is the same before and after,
and what depends on the selection alone need not look at the layout.
-/

namespace MessageBlocks.Text

variable {keep discard : Char → Bool}

theorem unlines_lines (text : List Char) : unlines (lines text) = text :=
  List.intercalate_splitOn '\n'

theorem lines_unlines {rows : List (List Char)} (some : rows ≠ [])
    (single : ∀ row ∈ rows, '\n' ∉ row) : lines (unlines rows) = rows :=
  List.splitOn_intercalate '\n' single some

/-- A piece between separators has none in it. -/
theorem notMem_of_mem_splitOn {α : Type} [BEq α] [LawfulBEq α] {separator : α}
    {items piece : List α} (member : piece ∈ items.splitOn separator) : separator ∉ piece := by
  induction items generalizing piece with
  | nil =>
      rw [List.splitOn_nil, List.mem_singleton] at member
      simp [member]
  | cons item rest ih =>
      rw [List.splitOn_cons_eq_if_modifyHead] at member
      split at member
      · rcases List.mem_cons.1 member with rfl | inRest
        · exact List.not_mem_nil
        · exact ih inRest
      · next different =>
          obtain ⟨first, others, pieces⟩ :=
            List.exists_cons_of_ne_nil (List.splitOn_ne_nil separator rest)
          rw [pieces] at ih member
          rcases List.mem_cons.1 member with rfl | inOthers
          · rw [List.mem_cons, not_or]
            exact ⟨fun same => different (by simp [same]), ih List.mem_cons_self⟩
          · exact ih (List.mem_cons_of_mem _ inOthers)

theorem unlines_cons_cons (row next : List Char) (rest : List (List Char)) :
    unlines (row :: next :: rest) = row ++ '\n' :: unlines (next :: rest) := by
  simp [unlines, List.intercalate_cons_cons]

theorem flatten_sublist_unlines (rows : List (List Char)) :
    rows.flatten.Sublist (unlines rows) := by
  induction rows with
  | nil => exact List.Sublist.refl _
  | cons row rest ih =>
      cases rest with
      | nil => simp [unlines]
      | cons next rest =>
          rw [unlines_cons_cons]
          exact (List.Sublist.refl row).append (ih.cons '\n')

theorem mem_of_mem_unlines {rows : List (List Char)} {character : Char}
    (notFeed : character ≠ '\n') (member : character ∈ unlines rows) :
    ∃ row ∈ rows, character ∈ row := by
  induction rows with
  | nil => cases member
  | cons row rest ih =>
      cases rest with
      | nil => exact ⟨row, List.mem_cons_self, by simpa [unlines] using member⟩
      | cons next rest =>
          rw [unlines_cons_cons, List.mem_append, List.mem_cons] at member
          rcases member with inRow | isFeed | inRest
          · exact ⟨row, List.mem_cons_self, inRow⟩
          · exact absurd isFeed notFeed
          · obtain ⟨other, among, inOther⟩ := ih inRest
            exact ⟨other, List.mem_cons_of_mem _ among, inOther⟩

theorem mem_of_mem_lines {text row : List Char} {character : Char} (member : row ∈ lines text)
    (inRow : character ∈ row) : character ∈ text := by
  rw [← unlines_lines text]
  exact (flatten_sublist_unlines _).subset (List.mem_flatten_of_mem member inRow)

theorem filter_trimStartBy (apart : ∀ character, discard character = true → keep character = false)
    (text : List Char) : (trimStartBy discard text).filter keep = text.filter keep := by
  induction text with
  | nil => rfl
  | cons character rest ih =>
      rw [trimStartBy, List.dropWhile_cons]
      split
      · next dropped =>
          rw [List.filter_cons_of_neg (by simp [apart character dropped])]
          exact ih
      · rfl

theorem filter_trimEndBy (apart : ∀ character, discard character = true → keep character = false)
    (text : List Char) : (trimEndBy discard text).filter keep = text.filter keep := by
  have reversed := filter_trimStartBy apart text.reverse
  rw [trimStartBy] at reversed
  rw [trimEndBy, List.filter_reverse, reversed, List.filter_reverse, List.reverse_reverse]

/-- The end of a text that is trimmed away, put back. -/
theorem trimEndBy_append (discard : Char → Bool) (text : List Char) :
    trimEndBy discard text ++ (text.reverse.takeWhile discard).reverse = text := by
  rw [trimEndBy, ← List.reverse_append, List.takeWhile_append_dropWhile, List.reverse_reverse]

/-- Trimming keeps all characters that it may not discard. -/
theorem filter_trimBy (apart : ∀ character, discard character = true → keep character = false)
    (text : List Char) : (trimBy discard text).filter keep = text.filter keep := by
  rw [trimBy, filter_trimEndBy apart, filter_trimStartBy apart]

theorem filter_takeWhile (apart : ∀ character, discard character = true → keep character = false)
    (text : List Char) : (text.takeWhile discard).filter keep = [] := by
  rw [List.filter_eq_nil_iff]
  intro character member kept
  have discarded : discard character = true := List.all_eq_true.1 List.all_takeWhile _ member
  simp [apart character discarded] at kept

theorem filter_unlines (rows : List (List Char)) :
    (unlines rows).filter keep =
      (['\n'].filter keep).intercalate (rows.map (List.filter keep)) := by
  induction rows with
  | nil => rfl
  | cons row rest ih =>
      cases rest with
      | nil => simp [unlines]
      | cons next rest =>
          rw [unlines] at ih
          rw [unlines, List.intercalate_cons_cons, List.filter_append, List.filter_append, ih]
          simp [List.intercalate_cons_cons]

/-- Changing every line of a text keeps what every line keeps. -/
theorem filter_unlines_map {change : List Char → List Char}
    (same : ∀ line, (change line).filter keep = line.filter keep) (text : List Char) :
    (unlines ((lines text).map change)).filter keep = text.filter keep := by
  rw [filter_unlines, List.map_map]
  have unchanged : List.filter keep ∘ change = List.filter keep := funext same
  rw [unchanged, ← filter_unlines, unlines_lines]

end MessageBlocks.Text

namespace MessageBlocks.Markup

variable {keep : Char → Bool} {mark : Char}

theorem filter_markLine (noSpace : keep ' ' = false) (noMark : keep mark = false)
    (line : List Char) : (markLine mark line).filter keep = line.filter keep := by
  have apart : ∀ character, (character == ' ') = true → keep character = false := by
    intro character isSpace
    rw [eq_of_beq isSpace]
    exact noSpace
  have lead : (Text.padded line).lead.filter keep = [] := Text.filter_takeWhile apart line
  have tail : (Text.padded line).tail.filter keep = [] := by
    rw [Text.padded, List.filter_reverse, Text.filter_takeWhile apart, List.reverse_nil]
  have core : (Text.padded line).core.filter keep = line.filter keep :=
    Text.filter_trimBy apart line
  rw [markLine, List.filter_append, List.filter_append, lead, tail]
  split
  · next empty =>
      rw [List.isEmpty_iff.1 empty] at core
      simpa using core
  · simp [noMark, core]

/-- Marking a text keeps all characters but spaces and the mark. -/
theorem filter_marked (noSpace : keep ' ' = false) (noMark : keep mark = false)
    (text : List Char) : (marked mark text).filter keep = text.filter keep :=
  Text.filter_unlines_map (filter_markLine noSpace noMark) text

end MessageBlocks.Markup
