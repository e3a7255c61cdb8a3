import MessageBlocks.Proofs.Text.Entities
import MessageBlocks.Proofs.Text.Escape

/-!
# The layout of escaped text

Spaces, line feeds and marks are written as they are, and no entity holds any of them.
So a text may be cut into lines, trimmed and marked before the escape or after it. Marks
are put between the characters of a text and none of these is lost.
-/

namespace MessageBlocks

namespace Text

variable {discard : Char → Bool} {write : Char → List Char}

/-- Whether a character is written as it is. -/
def isPlain (character : Char) : Bool :=
  character != '&' && character != '<' && character != '>'

theorem escapeChar_of_isPlain {character : Char} (plain : isPlain character = true) :
    escapeChar character = [character] := by
  simp only [isPlain, Bool.and_eq_true, bne_iff_ne, ne_eq] at plain
  simp [escapeChar, plain]

theorem escape_append (first second : List Char) :
    escape (first ++ second) = escape first ++ escape second :=
  List.flatMap_append

theorem escape_cons_of_isPlain {character : Char} (plain : isPlain character = true)
    (rest : List Char) : escape (character :: rest) = character :: escape rest := by
  rw [escape, List.flatMap_cons, escapeChar_of_isPlain plain]
  rfl

theorem escape_eq_nil_iff {text : List Char} : escape text = [] ↔ text = [] := by
  constructor
  · intro empty
    rw [← unescape_escape text, empty]
    rfl
  · rintro rfl
    rfl

/-- If the characters of a class are written as they are and the written form of any other
one starts outside the class, the class can be dropped before writing. -/
theorem dropWhile_flatMap (fixed : ∀ character, discard character = true →
      write character = [character])
    (apart : ∀ character, discard character = false →
      ∃ first rest, write character = first :: rest ∧ discard first = false)
    (text : List Char) :
    (text.flatMap write).dropWhile discard = (text.dropWhile discard).flatMap write := by
  induction text with
  | nil => rfl
  | cons character rest ih =>
      cases dropped : discard character with
      | true => simp [fixed character dropped, dropped, ih]
      | false =>
          obtain ⟨first, others, written, kept⟩ := apart character dropped
          simp [written, dropped, kept]

theorem takeWhile_flatMap (fixed : ∀ character, discard character = true →
      write character = [character])
    (apart : ∀ character, discard character = false →
      ∃ first rest, write character = first :: rest ∧ discard first = false)
    (text : List Char) :
    (text.flatMap write).takeWhile discard = (text.takeWhile discard).flatMap write := by
  induction text with
  | nil => rfl
  | cons character rest ih =>
      cases taken : discard character with
      | true => simp [fixed character taken, taken, ih]
      | false =>
          obtain ⟨first, others, written, kept⟩ := apart character taken
          simp [written, taken, kept]

/-- A class of plain characters that holds none of those with which an entity starts or ends. -/
structure IsTrimmable (discard : Char → Bool) : Prop where
  plain : ∀ character, discard character = true → isPlain character = true
  starts : discard '&' = false
  ends : discard ';' = false

namespace IsTrimmable

theorem space : IsTrimmable (· == ' ') where
  plain _ isSpace := by rw [eq_of_beq isSpace]; rfl
  starts := rfl
  ends := rfl

theorem lineFeed : IsTrimmable (· == '\n') where
  plain _ isFeed := by rw [eq_of_beq isFeed]; rfl
  starts := rfl
  ends := rfl

variable (trimmable : IsTrimmable discard)

include trimmable

theorem fixed (character : Char) (discarded : discard character = true) :
    escapeChar character = [character] :=
  escapeChar_of_isPlain (trimmable.plain character discarded)

theorem apart (character : Char) (kept : discard character = false) :
    ∃ first rest, escapeChar character = first :: rest ∧ discard first = false := by
  rw [escapeChar]
  split
  · exact ⟨_, _, rfl, trimmable.starts⟩
  · split
    · exact ⟨_, _, rfl, trimmable.starts⟩
    · split
      · exact ⟨_, _, rfl, trimmable.starts⟩
      · exact ⟨_, _, rfl, kept⟩

theorem fixed_reverse (character : Char) (discarded : discard character = true) :
    (List.reverse ∘ escapeChar) character = [character] := by
  simp [trimmable.fixed character discarded]

theorem apart_reverse (character : Char) (kept : discard character = false) :
    ∃ first rest, (List.reverse ∘ escapeChar) character = first :: rest ∧
      discard first = false := by
  rw [Function.comp_apply, escapeChar]
  split
  · exact ⟨_, _, rfl, trimmable.ends⟩
  · split
    · exact ⟨_, _, rfl, trimmable.ends⟩
    · split
      · exact ⟨_, _, rfl, trimmable.ends⟩
      · exact ⟨_, _, rfl, kept⟩

theorem trimStartBy_escape (text : List Char) :
    trimStartBy discard (escape text) = escape (trimStartBy discard text) :=
  dropWhile_flatMap trimmable.fixed trimmable.apart text

theorem trimEndBy_escape (text : List Char) :
    trimEndBy discard (escape text) = escape (trimEndBy discard text) := by
  rw [trimEndBy, escape, List.reverse_flatMap,
    dropWhile_flatMap trimmable.fixed_reverse trimmable.apart_reverse, List.reverse_flatMap,
    trimEndBy, escape]
  simp [Function.comp_def]

theorem trimBy_escape (text : List Char) :
    trimBy discard (escape text) = escape (trimBy discard text) := by
  rw [trimBy, trimmable.trimStartBy_escape, trimmable.trimEndBy_escape, trimBy]

end IsTrimmable

theorem padded_escape (text : List Char) :
    padded (escape text) =
      ⟨escape (padded text).lead, escape (padded text).core, escape (padded text).tail⟩ := by
  have space := IsTrimmable.space
  have lead : (escape text).takeWhile (· == ' ') = escape (text.takeWhile (· == ' ')) :=
    takeWhile_flatMap space.fixed space.apart text
  have tail (text : List Char) : ((escape text).reverse.takeWhile (· == ' ')).reverse =
      escape (text.reverse.takeWhile (· == ' ')).reverse := by
    rw [escape, List.reverse_flatMap,
      takeWhile_flatMap space.fixed_reverse space.apart_reverse, List.reverse_flatMap, escape]
    simp [Function.comp_def]
  rw [padded, lead, space.trimStartBy_escape, space.trimEndBy_escape, tail]
  rfl

/-- A line is its core with the outer spaces put back. -/
theorem padded_append (line : List Char) :
    (padded line).lead ++ (padded line).core ++ (padded line).tail = line := by
  rw [padded, List.append_assoc, trimEndBy_append, trimStartBy, List.takeWhile_append_dropWhile]

theorem lines_lineFeed_cons (rest : List Char) : lines ('\n' :: rest) = [] :: lines rest := by
  rw [lines, List.splitOn_cons_eq_if_modifyHead]
  rfl

/-- A text in front of the first line feed belongs to the first line. -/
theorem lines_append {before : List Char} (oneLine : '\n' ∉ before) (text : List Char) :
    lines (before ++ text) = (lines text).modifyHead (before ++ ·) := by
  induction before with
  | nil => cases split : lines text <;> simp [split]
  | cons character rest ih =>
      rw [List.mem_cons, not_or] at oneLine
      have notFeed : (character == '\n') = false := by simpa using Ne.symm oneLine.1
      have following := ih oneLine.2
      rw [lines] at following ⊢
      rw [List.cons_append, List.splitOn_cons_eq_if_modifyHead, notFeed, following]
      cases lines text <;> simp

theorem lines_escape (text : List Char) : lines (escape text) = (lines text).map escape := by
  induction text with
  | nil => rfl
  | cons character rest ih =>
      by_cases isFeed : character = '\n'
      · subst isFeed
        rw [escape_cons_of_isPlain rfl, lines_lineFeed_cons, lines_lineFeed_cons, ih]
        rfl
      · have oneLine : '\n' ∉ escapeChar character := by
          intro member
          have written : '\n' ∈ escape [character] := by simpa [escape] using member
          exact isFeed (List.mem_singleton.1 (lineFeed_mem_escape.1 written)).symm
        have alone : lines (character :: rest) = (lines rest).modifyHead ([character] ++ ·) :=
          lines_append (fun member => isFeed (List.mem_singleton.1 member).symm) rest
        have split : escape (character :: rest) = escapeChar character ++ escape rest := rfl
        rw [split, lines_append oneLine, ih, alone]
        cases lines rest <;> simp [escape]

theorem unlines_map_escape (rows : List (List Char)) :
    unlines (rows.map escape) = escape (unlines rows) := by
  induction rows with
  | nil => rfl
  | cons row rest ih =>
      cases rest with
      | nil => simp [unlines]
      | cons next rest =>
          rw [List.map_cons, List.map_cons, unlines_cons_cons, ← List.map_cons, ih,
            unlines_cons_cons, escape_append, escape_cons_of_isPlain rfl]

end Text

namespace Markup

open Text

variable {mark : Char}

theorem markLine_escape (plain : isPlain mark = true) (line : List Char) :
    markLine mark (escape line) = escape (markLine mark line) := by
  rw [markLine, padded_escape, markLine]
  by_cases empty : (padded line).core = []
  · simp [empty, escape_append, escape_eq_nil_iff]
  · simp [empty, escape_append, escape_cons_of_isPlain plain, escape_eq_nil_iff]

/-- A mark may be put around escaped text or around the text before it is escaped. -/
theorem marked_escape (plain : isPlain mark = true) (text : List Char) :
    marked mark (escape text) = escape (marked mark text) := by
  rw [marked, lines_escape, List.map_map, marked, ← unlines_map_escape, List.map_map]
  congr 2
  funext line
  exact markLine_escape plain line

theorem sublist_markLine (mark : Char) (line : List Char) : line.Sublist (markLine mark line) := by
  conv => lhs; rw [← padded_append line]
  rw [markLine]
  refine ((List.Sublist.refl _).append ?_).append (List.Sublist.refl _)
  split
  · next empty => simp [List.isEmpty_iff.1 empty]
  · exact (List.sublist_append_left _ [mark]).cons mark

/-- Marks are added to a text, and nothing is taken away. -/
theorem sublist_marked (mark : Char) (text : List Char) :
    text.Sublist (marked mark text) := by
  conv => lhs; rw [← unlines_lines text]
  rw [marked]
  generalize lines text = rows
  induction rows with
  | nil => exact List.Sublist.refl _
  | cons row rest ih =>
      cases rest with
      | nil => simpa [unlines] using sublist_markLine mark row
      | cons next rest =>
          rw [List.map_cons, List.map_cons, unlines_cons_cons, unlines_cons_cons, ← List.map_cons]
          exact (sublist_markLine mark row).append (ih.cons_cons _)

end Markup

end MessageBlocks
