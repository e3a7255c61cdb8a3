import MessageBlocks.Proofs.Text.EscapeLayout
import Mathlib.Data.List.Basic

/-!
# Nested marks

Marks are read from left to right: a mark closes the last one that is open if it is the same,
and opens a new one if not. Well-marked text is made of spans between two equal marks. A span
stands on one line, has no space at either end, and no span directly in it has its mark. So
each mark is read as it was meant, and this survives cutting a text into lines, trimming these
and putting marks around them.
-/

namespace MessageBlocks

namespace Text

/-- The marks of formatted text. -/
def marks : List Char :=
  ['*', '_', '~', '\x60']

theorem forall_mem_marks {law : Char → Prop} :
    (∀ mark ∈ marks, law mark) ↔ law '*' ∧ law '_' ∧ law '~' ∧ law '\x60' := by
  simp [marks]

/-- Whether the marks of a text nest, where the open marks are on a stack and `before` is the
character in front of the text. No space may follow a mark that opens or stand before one that
closes. -/
def nestsFrom (stack : List Char) (before : Option Char) : List Char → Bool
  | [] => stack.isEmpty
  | character :: rest =>
      if character ∈ marks then
        if stack.head? = some character then
          before.any (· != ' ') && nestsFrom stack.tail (some character) rest
        else
          rest.head?.any (· != ' ') && nestsFrom (character :: stack) (some character) rest
      else nestsFrom stack (some character) rest

/-- The marks of a line nest, and each of them touches what it marks. -/
def NestsMarks (line : List Char) : Prop :=
  nestsFrom [] none line = true

instance (line : List Char) : Decidable (NestsMarks line) :=
  inferInstanceAs (Decidable (_ = _))

/-- What may stand between two marks: text on one line without a space at either end. -/
structure IsCore (text : List Char) : Prop where
  oneLine : '\n' ∉ text
  first : text.head?.any (· != ' ') = true
  last : text.getLast?.any (· != ' ') = true

/-- Well-marked text directly within the mark `outer`, or within none. -/
inductive IsMarked : Option Char → List Char → Prop where
  | nil {outer : Option Char} : IsMarked outer []
  | char {outer : Option Char} {character : Char} {rest : List Char}
      (plain : character ∉ marks) (following : IsMarked outer rest) :
      IsMarked outer (character :: rest)
  | span {outer : Option Char} {mark : Char} {core rest : List Char} (isMark : mark ∈ marks)
      (apart : outer ≠ some mark) (isCore : IsCore core) (inside : IsMarked (some mark) core)
      (following : IsMarked outer rest) : IsMarked outer (mark :: (core ++ mark :: rest))

theorem IsCore.reverse {text : List Char} (isCore : IsCore text) : IsCore text.reverse where
  oneLine member := isCore.oneLine (List.mem_reverse.1 member)
  first := by
    rw [List.head?_reverse]
    exact isCore.last
  last := by
    rw [List.getLast?_reverse]
    exact isCore.first

theorem IsCore.ne_nil {text : List Char} (isCore : IsCore text) : text ≠ [] := by
  rintro rfl
  exact absurd isCore.first (by decide)

namespace IsMarked

variable {outer : Option Char} {text before after : List Char}

theorem append (isMarked : IsMarked outer before) (next : IsMarked outer after) :
    IsMarked outer (before ++ after) := by
  induction isMarked with
  | nil => exact next
  | char plain _ ih => exact .char plain (ih next)
  | span isMark apart isCore inside _ _ ih =>
      rw [List.cons_append, List.append_assoc, List.cons_append]
      exact .span isMark apart isCore inside (ih next)

theorem of_plain (plain : ∀ mark ∈ marks, mark ∉ text) : IsMarked outer text := by
  induction text with
  | nil => exact .nil
  | cons character rest ih =>
      have unmarked : character ∉ marks := fun isMark => plain character isMark List.mem_cons_self
      exact .char unmarked (ih fun mark isMark member =>
        plain mark isMark (List.mem_cons_of_mem _ member))

theorem singleton {character : Char} (plain : character ∉ marks) : IsMarked outer [character] :=
  .char plain .nil

theorem reverse (isMarked : IsMarked outer text) : IsMarked outer text.reverse := by
  induction isMarked with
  | nil => exact .nil
  | char plain _ ih =>
      rw [List.reverse_cons]
      exact ih.append (.singleton plain)
  | @span outer mark core rest isMark apart isCore _ _ inside ih =>
      -- A span read backwards is a span over the reversed core, now at the end of the text.
      have turned : (mark :: (core ++ mark :: rest)).reverse =
          rest.reverse ++ mark :: (core.reverse ++ mark :: []) := by simp
      rw [turned]
      exact ih.append (.span isMark apart isCore.reverse inside .nil)

/-- Leading characters that are no marks may be dropped. -/
theorem dropWhile {discard : Char → Bool}
    (plain : ∀ character, discard character = true → character ∉ marks)
    (isMarked : IsMarked outer text) : IsMarked outer (text.dropWhile discard) := by
  induction isMarked with
  | nil => exact .nil
  | @char outer character rest unmarked following ih =>
      rw [List.dropWhile_cons]
      split
      · exact ih
      · exact .char unmarked following
  | @span outer mark core rest isMark apart isCore inside following _ _ =>
      rw [List.dropWhile_cons]
      split
      · next discarded => exact absurd isMark (plain mark discarded)
      · exact .span isMark apart isCore inside following

theorem trimStartBy {discard : Char → Bool}
    (plain : ∀ character, discard character = true → character ∉ marks)
    (isMarked : IsMarked outer text) : IsMarked outer (Text.trimStartBy discard text) :=
  isMarked.dropWhile plain

theorem trimEndBy {discard : Char → Bool}
    (plain : ∀ character, discard character = true → character ∉ marks)
    (isMarked : IsMarked outer text) : IsMarked outer (Text.trimEndBy discard text) :=
  (isMarked.reverse.dropWhile plain).reverse

theorem space_plain (character : Char) (isSpace : (character == ' ') = true) :
    character ∉ marks := by
  rw [eq_of_beq isSpace]
  decide

theorem trimSpaces (isMarked : IsMarked outer text) : IsMarked outer (Text.trimSpaces text) :=
  (isMarked.trimStartBy space_plain).trimEndBy space_plain

theorem lines_append (isMarked : IsMarked outer before) (oneLine : '\n' ∉ before)
    (rows : ∀ line ∈ Text.lines after, IsMarked outer line) :
    ∀ line ∈ Text.lines (before ++ after), IsMarked outer line := by
  rw [Text.lines_append oneLine]
  cases split : Text.lines after with
  | nil => nofun
  | cons first others =>
      rw [split] at rows
      obtain ⟨here, further⟩ := List.forall_mem_cons.1 rows
      rw [List.modifyHead_cons]
      exact List.forall_mem_cons.2 ⟨isMarked.append here, further⟩

/-- No span reaches over a line feed, so the lines of well-marked text are well marked. -/
theorem lines (isMarked : IsMarked outer text) :
    ∀ line ∈ Text.lines text, IsMarked outer line := by
  induction isMarked with
  | nil =>
      intro line member
      obtain rfl := List.mem_singleton.1 member
      exact .nil
  | @char outer character rest plain _ ih =>
      by_cases isFeed : character = '\n'
      · subst isFeed
        rw [lines_lineFeed_cons]
        exact List.forall_mem_cons.2 ⟨.nil, ih⟩
      · have oneLine : '\n' ∉ [character] := by simpa using Ne.symm isFeed
        exact (singleton plain).lines_append oneLine ih
  | @span outer mark core rest isMark apart isCore inside _ _ ih =>
      have alone : IsMarked outer (mark :: (core ++ [mark])) :=
        .span isMark apart isCore inside .nil
      have notFeed : '\n' ≠ mark := by
        rintro rfl
        exact absurd isMark (by decide)
      have oneLine : '\n' ∉ mark :: (core ++ [mark]) := by
        simp [notFeed, isCore.oneLine]
      have whole := alone.lines_append oneLine ih
      simpa using whole

theorem unlines {rows : List (List Char)} (isMarked : ∀ row ∈ rows, IsMarked outer row) :
    IsMarked outer (Text.unlines rows) := by
  induction rows with
  | nil => exact .nil
  | cons row rest ih =>
      obtain ⟨here, following⟩ := List.forall_mem_cons.1 isMarked
      cases rest with
      | nil => simpa [Text.unlines] using here
      | cons next rest =>
          rw [unlines_cons_cons]
          exact here.append (.char (by decide) (ih following))

end IsMarked

theorem lineFeed_notMem_lines (text : List Char) : ∀ line ∈ lines text, '\n' ∉ line :=
  fun _ => notMem_of_mem_splitOn

theorem first_dropWhile {text : List Char} (shown : text.dropWhile (· == ' ') ≠ []) :
    (text.dropWhile (· == ' ')).head?.any (· != ' ') = true := by
  have notSpace := List.head?_dropWhile_not (· == ' ') text
  cases rest : text.dropWhile (· == ' ') with
  | nil => exact absurd rest shown
  | cons character others =>
      simp only [rest, List.head?_cons] at notSpace
      simpa using notSpace

/-- What is left between the outer spaces of a line has no space at its ends. -/
theorem isCore_padded {line : List Char} (oneLine : '\n' ∉ line)
    (shown : (padded line).core ≠ []) : IsCore (padded line).core where
  oneLine member := oneLine (mem_of_mem_trimBy member)
  first := by
    simp only [padded] at shown ⊢
    have parts := trimEndBy_append (· == ' ') (trimStartBy (· == ' ') line)
    have started : trimStartBy (· == ' ') line ≠ [] := by
      rw [← parts]
      exact List.append_ne_nil_of_left_ne_nil shown _
    have first := first_dropWhile started
    rw [← trimStartBy, ← parts, List.head?_append_of_ne_nil _ shown] at first
    exact first
  last := by
    rw [padded, trimEndBy] at shown ⊢
    rw [List.getLast?_reverse]
    exact first_dropWhile fun empty => shown (by rw [empty, List.reverse_nil])

/-- A scan passes over well-marked text and comes out with the stack with which it went in. -/
theorem IsMarked.nestsFrom_append {outer : Option Char} {text : List Char}
    (isMarked : IsMarked outer text) (stack : List Char) (top : stack.head? = outer)
    (before : Option Char) (rest : List Char) :
    nestsFrom stack before (text ++ rest) = nestsFrom stack (text.getLast?.or before) rest := by
  induction isMarked generalizing stack before rest with
  | nil => rfl
  | @char outer character following plain _ ih =>
      rw [List.cons_append, nestsFrom, if_neg plain, ih stack top, List.getLast?_cons]
      cases following.getLast? <;> rfl
  | @span outer mark core following isMark apart isCore _ _ inside ih =>
      -- The first mark is not on top of the stack, so it opens, and the core is passed over with
      -- the mark on top. The stack is the same after the core, so the second mark closes.
      have opens : stack.head? ≠ some mark := top ▸ apart
      have afterOpening :
          (core ++ mark :: (following ++ rest)).head?.any (· != ' ') = true := by
        rw [List.head?_append_of_ne_nil _ isCore.ne_nil]
        exact isCore.first
      have beforeClosing : (core.getLast?.or (some mark)).any (· != ' ') = true := by
        have last := isCore.last
        cases found : core.getLast? with
        | none => simp [found] at last
        | some character => simpa [found] using last
      have closes :
          nestsFrom (mark :: stack) (core.getLast?.or (some mark)) (mark :: (following ++ rest)) =
            nestsFrom stack (some mark) (following ++ rest) := by
        rw [nestsFrom, if_pos isMark, List.head?_cons, if_pos rfl, beforeClosing, Bool.true_and,
          List.tail_cons]
      have whole : (mark :: (core ++ mark :: following)) ++ rest =
          mark :: (core ++ mark :: (following ++ rest)) := by simp
      rw [whole, nestsFrom, if_pos isMark, if_neg opens, afterOpening, Bool.true_and,
        inside (mark :: stack) rfl, closes, ih stack top, ← List.cons_append, List.getLast?_append,
        List.getLast?_cons]
      cases following.getLast? <;> rfl

theorem IsMarked.nestsMarks {line : List Char} (isMarked : IsMarked none line) :
    NestsMarks line := by
  have passes := isMarked.nestsFrom_append [] rfl none []
  rw [List.append_nil] at passes
  exact passes

example : ¬ NestsMarks "*a _b* c_".toList ∧ ¬ NestsMarks "*a *".toList := by decide

end Text

namespace Markup

open Text

variable {mark : Char} {outer : Option Char} {text line : List Char}

theorem isMarked_markLine (isMark : mark ∈ marks) (apart : outer ≠ some mark)
    (oneLine : '\n' ∉ line) (isMarked : IsMarked (some mark) line) :
    IsMarked outer (markLine mark line) := by
  have spaces (text : List Char) : IsMarked outer (text.takeWhile (· == ' ')) := by
    apply IsMarked.of_plain
    intro other among member
    have isSpace : (fun character => character == ' ') other = true :=
      List.all_eq_true.1 List.all_takeWhile other member
    exact IsMarked.space_plain other isSpace among
  have inside : IsMarked (some mark) (padded line).core := isMarked.trimSpaces
  rw [markLine]
  refine ((spaces line).append ?_).append (spaces _).reverse
  split
  · exact .nil
  · next shown =>
      have isCore := isCore_padded oneLine fun empty => shown (List.isEmpty_iff.2 empty)
      exact .span isMark apart isCore inside .nil

/-- Marking well-marked text by a mark that stands nowhere directly in it. -/
theorem isMarked_marked (isMark : mark ∈ marks) (apart : outer ≠ some mark)
    (isMarked : IsMarked (some mark) text) : IsMarked outer (marked mark text) := by
  rw [marked]
  apply IsMarked.unlines
  intro row member
  obtain ⟨line, lineMember, rfl⟩ := List.mem_map.1 member
  exact isMarked_markLine isMark apart (lineFeed_notMem_lines text line lineMember)
    (isMarked.lines line lineMember)

end Markup

end MessageBlocks
