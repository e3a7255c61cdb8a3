import MessageBlocks.Proofs.Text.Marks
import MessageBlocks.Proofs.Text.Visible
import Mathlib.Data.List.Induction

/-!
# Gaps in the lines of a text

A gap is more than one space between two characters on a line. Who reads a text from left to right
finds its gaps by keeping in mind how far behind the last other character the reader stands. The
escape and the marks put characters only where there are some already, and trimming a line takes
spaces only from its ends. So none of these makes or closes a gap.
-/

namespace MessageBlocks

namespace Text

/-- Whether a character is neither a space nor the end of a line. -/
def isInk (character : Char) : Bool :=
  character != ' ' && character != '\n'

/-- Where a reader stands: in front of the ink of a line, right behind ink, one space behind it, or
more than one. -/
inductive Stance where
  | margin
  | ink
  | space
  | gap
  deriving DecidableEq

/-- The stance behind one more space. -/
def Stance.behindSpace : Stance → Stance
  | margin => margin
  | ink => space
  | space | gap => gap

/-- The stance behind the next character, `none` if it closes a gap. -/
def Stance.next? (stance : Stance) (character : Char) : Option Stance :=
  if character = '\n' then some margin
  else if character = ' ' then some stance.behindSpace
  else if stance = gap then none
  else some ink

/-- The stance behind a text, `none` if a gap is closed in it. -/
def walk : Stance → List Char → Option Stance
  | stance, [] => some stance
  | stance, character :: rest => (stance.next? character).bind fun next => walk next rest

/-- Whether some line of a text has a gap. -/
def HasGap (text : List Char) : Prop :=
  walk .margin text = none

instance (text : List Char) : Decidable (HasGap text) :=
  inferInstanceAs (Decidable (_ = _))

/-- `GapAt text before after`: there is a gap between the two parts of the text. -/
structure GapAt (text before after : List Char) : Prop where
  wide : ∃ count, 2 ≤ count ∧ text = before ++ List.replicate count ' ' ++ after
  last : before.getLast?.any isInk = true
  first : after.head?.any isInk = true

variable {stance : Stance} {character : Char} {text before after : List Char}

theorem walk_append (stance : Stance) (first second : List Char) :
    walk stance (first ++ second) = (walk stance first).bind fun next => walk next second := by
  induction first generalizing stance with
  | nil => rfl
  | cons character rest ih =>
      rw [List.cons_append, walk, walk, Option.bind_assoc]
      exact Option.bind_congr fun next _ => ih next

theorem walk_singleton (stance : Stance) (character : Char) :
    walk stance [character] = stance.next? character := by
  rw [walk]
  cases stance.next? character <;> rfl

theorem walk_lineFeed (stance : Stance) (rest : List Char) :
    walk stance ('\n' :: rest) = walk .margin rest :=
  rfl

theorem next?_of_isInk (isInk : isInk character = true) :
    stance.next? character = if stance = .gap then none else some .ink := by
  simp only [Text.isInk, Bool.and_eq_true, bne_iff_ne] at isInk
  rw [Stance.next?, if_neg isInk.2, if_neg isInk.1]

/-- Only ink closes a gap. -/
theorem next?_eq_none_iff :
    stance.next? character = none ↔ isInk character = true ∧ stance = .gap := by
  cases ink : isInk character with
  | true => rw [next?_of_isInk ink]; simp
  | false =>
      have space : character = '\n' ∨ character = ' ' := by
        by_contra neither
        simp [isInk, not_or.1 neither] at ink
      rcases space with rfl | rfl <;> simp [Stance.next?]

theorem walk_of_isInk (isInk : isInk character = true) (rest : List Char) :
    walk stance (character :: rest) = if stance = .gap then none else walk .ink rest := by
  rw [walk, next?_of_isInk isInk]
  split <;> rfl

/-- Behind a text that ends in ink a reader stands behind ink. -/
theorem eq_ink_of_walk {start : Stance} (ends : text.getLast?.any isInk = true)
    (reached : walk start text = some stance) : stance = .ink := by
  obtain ⟨last, isLast, isInk⟩ := (Option.any_eq_true _ _).1 ends
  obtain ⟨init, rfl⟩ := List.getLast?_eq_some_iff.1 isLast
  rw [walk_append] at reached
  obtain ⟨before, -, next⟩ := Option.bind_eq_some_iff.1 reached
  rw [walk_of_isInk isInk] at next
  split at next
  · cases next
  · exact (Option.some.inj next).symm

/-- The stance behind some spaces. -/
def Stance.behindSpaces (stance : Stance) : Nat → Stance
  | 0 => stance
  | count + 1 => stance.behindSpace.behindSpaces count

theorem walk_spaces (stance : Stance) (count : Nat) :
    walk stance (List.replicate count ' ') = some (stance.behindSpaces count) := by
  induction count generalizing stance with
  | zero => rfl
  | succ count ih => exact ih stance.behindSpace

theorem behindSpaces_gap (count : Nat) : Stance.behindSpaces .gap count = .gap := by
  induction count with
  | zero => rfl
  | succ count ih => exact ih

theorem behindSpaces_ink {count : Nat} (many : 2 ≤ count) :
    Stance.behindSpaces .ink count = .gap := by
  obtain ⟨more, rfl⟩ := Nat.exists_eq_add_of_le' many
  exact behindSpaces_gap more

/-- What a reader at a stance has read. -/
def Stance.Behind : Stance → List Char → Prop
  | margin, _ => True
  | ink, text => text.getLast?.any isInk = true
  | space, text => ∃ init, text = init ++ [' '] ∧ init.getLast?.any isInk = true
  | gap, text => ∃ init count, 2 ≤ count ∧ text = init ++ List.replicate count ' ' ∧
      init.getLast?.any isInk = true

/-- One more character leads to a stance that says what has been read then. -/
theorem Stance.Behind.next {next : Stance} (behind : stance.Behind text)
    (step : stance.next? character = some next) : next.Behind (text ++ [character]) := by
  by_cases isFeed : character = '\n'
  · subst isFeed
    obtain rfl := Option.some.inj step
    trivial
  by_cases isSpace : character = ' '
  · subst isSpace
    obtain rfl := Option.some.inj step
    cases stance with
    | margin => trivial
    | ink => exact ⟨text, rfl, behind⟩
    | space =>
        obtain ⟨init, rfl, ends⟩ := behind
        exact ⟨init, 2, Nat.le_refl 2, by simp, ends⟩
    | gap =>
        obtain ⟨init, count, many, rfl, ends⟩ := behind
        exact ⟨init, count + 1, Nat.le_succ_of_le many,
          by rw [List.replicate_succ', List.append_assoc], ends⟩
  have isInk : Text.isInk character = true := by simp [Text.isInk, isFeed, isSpace]
  rw [next?_of_isInk isInk] at step
  split at step
  · cases step
  · obtain rfl := Option.some.inj step
    simpa [Stance.Behind] using isInk

theorem behind_of_walk (reached : walk .margin text = some stance) : stance.Behind text := by
  induction text using List.reverseRecOn generalizing stance with
  | nil =>
      obtain rfl := Option.some.inj reached
      trivial
  | append_singleton init last ih =>
      rw [walk_append] at reached
      obtain ⟨before, first, step⟩ := Option.bind_eq_some_iff.1 reached
      rw [walk_singleton] at step
      exact (ih first).next step

theorem exists_of_walk_eq_none {start : Stance} (closed : walk start text = none) :
    ∃ before character after, text = before ++ character :: after ∧ isInk character = true ∧
      walk start before = some .gap := by
  induction text generalizing start with
  | nil => cases closed
  | cons character rest ih =>
      rw [walk] at closed
      cases next : start.next? character with
      | some stance =>
          rw [next] at closed
          obtain ⟨before, other, after, rfl, isInk, reached⟩ := ih closed
          refine ⟨character :: before, other, after, rfl, isInk, ?_⟩
          rw [walk, next]
          exact reached
      | none =>
          obtain ⟨isInk, rfl⟩ := next?_eq_none_iff.1 next
          exact ⟨[], character, rest, rfl, isInk, rfl⟩

theorem hasGap_iff : HasGap text ↔ ∃ before after, GapAt text before after := by
  constructor
  · intro closed
    obtain ⟨before, character, after, rfl, isInk, reached⟩ := exists_of_walk_eq_none closed
    obtain ⟨init, count, many, rfl, ends⟩ := behind_of_walk reached
    exact ⟨init, character :: after, ⟨count, many, rfl⟩, ends, isInk⟩
  · rintro ⟨before, after, ⟨count, many, rfl⟩, last, first⟩
    obtain ⟨character, isFirst, isInk⟩ := (Option.any_eq_true _ _).1 first
    obtain ⟨rest, rfl⟩ := List.head?_eq_some_iff.1 isFirst
    rw [HasGap, List.append_assoc, walk_append]
    cases reached : walk .margin before with
    | none => rfl
    | some stance =>
        obtain rfl := eq_ink_of_walk last reached
        rw [Option.bind_some, walk_append, walk_spaces, behindSpaces_ink many, Option.bind_some,
          walk_of_isInk isInk]
        rfl

/-! Spaces at the ends of a line and in front of a line feed are no gaps. -/

example : HasGap "a  b".toList ∧ ¬ HasGap "  a b  \n  c".toList := by decide

/-! What changes no gap, wherever it is done. -/

/-- Two texts that a reader passes alike, from each stance. -/
def SameGaps (first second : List Char) : Prop :=
  ∀ stance, walk stance first = walk stance second

namespace SameGaps

variable {first second third next following : List Char}

theorem refl (text : List Char) : SameGaps text text :=
  fun _ => rfl

theorem trans (same : SameGaps first second) (further : SameGaps second third) :
    SameGaps first third :=
  fun stance => (same stance).trans (further stance)

theorem append (same : SameGaps first second) (sameNext : SameGaps next following) :
    SameGaps (first ++ next) (second ++ following) := by
  intro stance
  rw [walk_append, walk_append, same stance]
  exact Option.bind_congr fun stance _ => sameNext stance

theorem hasGap_iff (same : SameGaps first second) : HasGap first ↔ HasGap second := by
  rw [HasGap, HasGap, same]

/-- An entity is ink, as is the character that it stands for. -/
theorem escapeChar (character : Char) : SameGaps (Text.escapeChar character) [character] := by
  intro stance
  rw [Text.escapeChar]
  split
  · next same =>
      subst same
      cases stance <;> rfl
  · split
    · next same =>
        subst same
        cases stance <;> rfl
    · split
      · next same =>
          subst same
          cases stance <;> rfl
      · rfl

theorem escape (text : List Char) : SameGaps (Text.escape text) text := by
  induction text with
  | nil => exact refl []
  | cons character rest ih =>
      rw [Text.escape, List.flatMap_cons, ← Text.escape]
      exact (escapeChar character).append ih

theorem unlines_map {rows : List (List Char)} {change : List Char → List Char}
    (same : ∀ row ∈ rows, SameGaps (change row) row) :
    SameGaps (unlines (rows.map change)) (unlines rows) := by
  induction rows with
  | nil => exact refl []
  | cons row rest ih =>
      obtain ⟨sameFirst, sameRest⟩ := List.forall_mem_cons.1 same
      cases rest with
      | nil => simpa [unlines] using sameFirst
      | cons next rest =>
          rw [List.map_cons, List.map_cons, unlines_cons_cons, unlines_cons_cons, ← List.map_cons]
          exact sameFirst.append ((refl ['\n']).append (ih sameRest))

end SameGaps

/-- Marks stand right next to the ink at the ends of what they mark. -/
theorem IsCore.sameGaps {core : List Char} (isCore : IsCore core) {mark : Char}
    (isInk : isInk mark = true) : SameGaps (mark :: core ++ [mark]) core := by
  intro stance
  have inked {other : Char} (member : other ∈ core) (notSpace : other ≠ ' ') :
      Text.isInk other = true := by
    have notFeed : other ≠ '\n' := fun same => isCore.oneLine (same ▸ member)
    simp [Text.isInk, notSpace, notFeed]
  obtain ⟨first, isFirst, firstText⟩ := (Option.any_eq_true _ _).1 isCore.first
  obtain ⟨last, isLast, lastText⟩ := (Option.any_eq_true _ _).1 isCore.last
  have ends : core.getLast?.any Text.isInk = true := by
    rw [isLast]
    exact inked (List.mem_of_getLast? isLast) (by simpa using lastText)
  have closed {start : Stance} : walk start (core ++ [mark]) = walk start core := by
    rw [walk_append]
    cases reached : walk start core with
    | none => rfl
    | some stance =>
        obtain rfl := eq_ink_of_walk ends reached
        rw [Option.bind_some, walk_of_isInk isInk]
        rfl
  rw [List.cons_append, walk_of_isInk isInk, closed]
  obtain ⟨rest, rfl⟩ := List.head?_eq_some_iff.1 isFirst
  have firstInk := inked List.mem_cons_self (by simpa using firstText)
  rw [walk_of_isInk firstInk, walk_of_isInk firstInk]
  cases stance <;> rfl

end Text

namespace Markup

open Text

theorem sameGaps_markLine {mark : Char} (isInk : isInk mark = true) {line : List Char}
    (oneLine : '\n' ∉ line) : SameGaps (markLine mark line) line := by
  conv => rhs; rw [← padded_append line]
  rw [markLine]
  refine ((SameGaps.refl _).append ?_).append (SameGaps.refl _)
  split
  · next empty =>
      rw [List.isEmpty_iff.1 empty]
      exact SameGaps.refl []
  · next shown => exact (isCore_padded oneLine (by simpa using shown)).sameGaps isInk

theorem sameGaps_marked {mark : Char} (isInk : isInk mark = true) (text : List Char) :
    SameGaps (marked mark text) text := by
  conv => rhs; rw [← unlines_lines text]
  exact SameGaps.unlines_map fun line member =>
    sameGaps_markLine isInk (lineFeed_notMem_lines text line member)

end Markup

end MessageBlocks
