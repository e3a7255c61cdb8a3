import MessageBlocks.Markup.Plain
import MessageBlocks.Proofs.Text.Selection

/-!
# Visible characters

The visible characters of a text are those that are not blank. Collapsing spacing and
trimming remove blank characters only, so they keep the sequence of visible ones.
-/

namespace MessageBlocks

namespace Text

/-- The characters of a text that are not blank, in their order. -/
def visible (text : List Char) : List Char :=
  text.filter fun character => !isBlank character

@[simp]
theorem visible_nil : visible [] = [] :=
  rfl

@[simp]
theorem visible_append (first second : List Char) :
    visible (first ++ second) = visible first ++ visible second :=
  List.filter_append ..

theorem visible_sublist (text : List Char) : (visible text).Sublist text :=
  List.filter_sublist

theorem visible_eq_nil_iff {text : List Char} : visible text = [] ↔ isBlankText text = true := by
  simp [visible, isBlankText]

theorem visible_visible (text : List Char) : visible (visible text) = visible text := by
  simp [visible]

/-- What holds visible characters as a subsequence still does so after blank characters have
been added or removed. -/
theorem visible_sublist_of_eq {text before after : List Char}
    (same : visible before = visible after) (inside : (visible text).Sublist before) :
    (visible text).Sublist after := by
  have selected : (visible (visible text)).Sublist (visible before) := inside.filter _
  rw [visible_visible, same] at selected
  exact selected.trans (visible_sublist after)

theorem isBlank_of_isSpacing {character : Char} (spacing : isSpacing character = true) :
    isBlank character = true := by
  simp only [isSpacing, Bool.or_eq_true, beq_iff_eq] at spacing
  rcases spacing with (((rfl | rfl) | rfl) | rfl) | rfl <;> decide

/-- Only spacing is dropped or put in. -/
theorem filter_collapse {keep : Char → Bool}
    (apart : ∀ character, isSpacing character = true → keep character = false)
    (text : List Char) : (collapse text).filter keep = text.filter keep := by
  suffices ∀ inRun, (collapseFrom inRun text).filter keep = text.filter keep from this false
  have space : keep ' ' = false := apart ' ' rfl
  induction text with
  | nil => exact fun _ => rfl
  | cons character rest ih =>
      intro inRun
      cases spacing : isSpacing character with
      | true => cases inRun <;> simp [collapseFrom, spacing, space, apart character spacing, ih]
      | false => simp [collapseFrom, spacing, List.filter_cons, ih]

theorem visible_collapse (text : List Char) : visible (collapse text) = visible text :=
  filter_collapse (fun _ spacing => by simp [isBlank_of_isSpacing spacing]) text

/-- Trimming by a class of blank characters. -/
theorem visible_trimBy {discard : Char → Bool}
    (blank : ∀ character, discard character = true → isBlank character = true)
    (text : List Char) : visible (trimBy discard text) = visible text :=
  filter_trimBy (fun character discarded => by simp [blank character discarded]) text

theorem visible_trim (text : List Char) : visible (trim text) = visible text :=
  visible_trimBy (fun _ blank => blank) text

theorem visible_trimSpaces (text : List Char) : visible (trimSpaces text) = visible text :=
  visible_trimBy (fun _ isSpace => by rw [eq_of_beq isSpace]; rfl) text

theorem visible_trimLineFeeds (text : List Char) :
    visible (trimLineFeeds text) = visible text :=
  visible_trimBy (fun _ isFeed => by rw [eq_of_beq isFeed]; rfl) text

/-- Changing every line of a text in blank characters only. -/
theorem visible_lines_map {change : List Char → List Char}
    (same : ∀ line, visible (change line) = visible line) (text : List Char) :
    visible ((lines text).map change).flatten = visible text := by
  have parts (rows : List (List Char)) :
      visible (rows.map change).flatten = visible (unlines rows) := by
    induction rows with
    | nil => rfl
    | cons row rest ih =>
        rw [List.map_cons, List.flatten_cons, visible_append, same, ih]
        cases rest with
        | nil => simp [unlines]
        | cons next rest =>
            rw [unlines_cons_cons, visible_append]
            rfl
  rw [parts, unlines_lines]

end Text

theorem Markup.visible_tidy (text : List Char) : Text.visible (tidy text) = Text.visible text := by
  rw [tidy, Text.visible_trim]
  exact Text.filter_unlines_map Text.visible_trimSpaces text

end MessageBlocks
