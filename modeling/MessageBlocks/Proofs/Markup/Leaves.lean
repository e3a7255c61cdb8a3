import MessageBlocks.Proofs.Markup.Tokenless
import MessageBlocks.Proofs.Text.Collapse
import MessageBlocks.Proofs.Text.Tidy

/-!
# Leaves of markup

The text of markup stands in its leaves, and lines end at breaks and at the edges of blocks. Each
leaf is collapsed by itself, so no gap is left in one of them. But where spacing goes on from one
leaf to the next, each of them writes a space of its own.
-/

namespace MessageBlocks

open Text

/-- What markup is made of from left to right: the text of a leaf, or the end of a line. -/
inductive Leaf where
  | text (content : List Char)
  | lineEnd
  deriving DecidableEq

namespace Leaf

def written : Leaf → List Char
  | .text content => collapse content
  | .lineEnd => ['\n']

def write (leaves : List Leaf) : List Char :=
  leaves.flatMap written

/-- Whether something visible stands in a leaf. -/
def Shows : Leaf → Prop
  | .text content => Text.Shows content
  | .lineEnd => False

/-- `GapBetween leaves before after`: between the text before and the text after there is only
spacing, and it stands in two or more leaves of the same line. -/
inductive GapBetween : List Leaf → List Leaf → List Leaf → Prop where
  | mk {front back : List Leaf} {first tail head last : List Char} {between : List (List Char)}
      {left right : Char} (leftText : isSpacing left = false) (rightText : isSpacing right = false)
      (spacing : ∀ part ∈ tail :: between ++ [head], ∀ character ∈ part, isSpacing character = true)
      (many : 2 ≤ ((tail :: between ++ [head]).filter (!·.isEmpty)).length) :
      GapBetween
        (front ++ .text (first ++ left :: tail) ::
          (between.map text ++ .text (head ++ right :: last) :: back))
        (front ++ [.text (first ++ [left])]) (.text (right :: last) :: back)

end Leaf

mutual

/-- The leaves of a node of markup. -/
def Markup.leaves : Markup → List Leaf
  | .text content => [.text content.toList]
  | .bold children | .italic children | .strike children | .code children | .link _ children
  | .time _ _ children => Markup.allLeaves children
  | .lineBreak => [.lineEnd]
  | .paragraph children | .blockquote children | .preformatted children =>
      .lineEnd :: Markup.allLeaves children ++ [.lineEnd]
  | .list _ items => ListItem.allLeaves items ++ [.lineEnd]

def Markup.allLeaves : List Markup → List Leaf
  | [] => []
  | node :: rest => Markup.leaves node ++ Markup.allLeaves rest

/-- The leaves of items, each of which starts a line. -/
def ListItem.allLeaves : List ListItem → List Leaf
  | [] => []
  | ⟨_, children⟩ :: rest => .lineEnd :: Markup.allLeaves children ++ ListItem.allLeaves rest

end

namespace Leaf

theorem write_append (first second : List Leaf) :
    write (first ++ second) = write first ++ write second :=
  List.flatMap_append

theorem write_cons (leaf : Leaf) (rest : List Leaf) :
    write (leaf :: rest) = leaf.written ++ write rest :=
  List.flatMap_cons

end Leaf

open Leaf

mutual

theorem Markup.write_leaves : ∀ node : Markup, node.IsTokenless →
    write node.leaves = node.plain
  | .text content, _ => by rw [Markup.leaves, write_cons, Markup.plain]; exact List.append_nil _
  | .bold children, tokenless | .italic children, tokenless | .strike children, tokenless
  | .code children, tokenless => Markup.write_allLeaves children tokenless
  | .lineBreak, _ => rfl
  | .paragraph children, tokenless | .blockquote children, tokenless
  | .preformatted children, tokenless => by
      rw [Markup.leaves, Markup.plain, write_append, write_cons,
        Markup.write_allLeaves children tokenless]
      rfl
  | .list _ items, tokenless => by
      rw [Markup.leaves, Markup.plain, write_append, ListItem.write_allLeaves items tokenless]
      rfl

/-- Without tokens plain text is what the leaves write. -/
theorem Markup.write_allLeaves : ∀ nodes : List Markup, Markup.AreTokenless nodes →
    write (Markup.allLeaves nodes) = Markup.plainAll nodes
  | [], _ => rfl
  | node :: rest, ⟨tokenless, restTokenless⟩ => by
      rw [Markup.allLeaves, Markup.plainAll, write_append, Markup.write_leaves node tokenless,
        Markup.write_allLeaves rest restTokenless]

theorem ListItem.write_allLeaves : ∀ items : List ListItem, ListItem.AreTokenless items →
    write (ListItem.allLeaves items) = ListItem.plainAll items
  | [], _ => rfl
  | ⟨_, children⟩ :: rest, ⟨tokenless, restTokenless⟩ => by
      rw [ListItem.allLeaves, ListItem.plainAll, write_append, write_cons,
        Markup.write_allLeaves children tokenless, ListItem.write_allLeaves rest restTokenless]
      rfl

end

namespace Leaf

variable {leaves before after : List Leaf}

theorem written_text (content : List Char) : (text content).written = collapse content :=
  rfl

/-- Leaves of spacing alone write a space for each of them that is not empty. -/
theorem write_of_spacing {parts : List (List Char)}
    (spacing : ∀ part ∈ parts, ∀ character ∈ part, isSpacing character = true) :
    write (parts.map text) = List.replicate (parts.filter (!·.isEmpty)).length ' ' := by
  induction parts with
  | nil => rfl
  | cons part rest ih =>
      obtain ⟨first, others⟩ := List.forall_mem_cons.1 spacing
      rw [List.map_cons, write_cons, written_text, collapse_of_spacing first, ih others]
      cases part <;> rfl

/-- Where leaves write nothing but spaces, they are spacing. -/
theorem exists_parts_of_write (spaces : ∀ character ∈ write leaves, character = ' ') :
    ∃ parts : List (List Char), leaves = parts.map text ∧
      ∀ part ∈ parts, ∀ character ∈ part, isSpacing character = true := by
  induction leaves with
  | nil => exact ⟨[], rfl, List.forall_mem_nil _⟩
  | cons leaf rest ih =>
      rw [write_cons, List.forall_mem_append] at spaces
      obtain ⟨here, further⟩ := spaces
      obtain ⟨parts, rfl, spacing⟩ := ih further
      cases leaf with
      | lineEnd => exact absurd (here '\n' List.mem_cons_self) (by decide)
      | text content =>
          refine ⟨content :: parts, rfl, List.forall_mem_cons.2 ⟨?_, spacing⟩⟩
          intro character member
          by_contra notSpacing
          obtain ⟨first, tail, rfl⟩ := List.append_of_mem member
          have ink : isSpacing character = false := by simpa using notSpacing
          rw [written_text, collapse_append ink] at here
          have isSpace := here character (by simp)
          rw [isSpace] at notSpacing
          exact notSpacing rfl

/-- Leaves that write some spaces are as many, apart from empty ones. -/
theorem exists_parts_of_write_eq {count : Nat} (same : write leaves = List.replicate count ' ') :
    ∃ parts : List (List Char), leaves = parts.map text ∧
      (∀ part ∈ parts, ∀ character ∈ part, isSpacing character = true) ∧
        (parts.filter (!·.isEmpty)).length = count := by
  have spaces : ∀ character ∈ write leaves, character = ' ' := by
    rw [same]
    exact fun character => List.eq_of_mem_replicate
  obtain ⟨parts, rfl, spacing⟩ := exists_parts_of_write spaces
  have sameCount := congrArg List.length same
  rw [write_of_spacing spacing, List.length_replicate, List.length_replicate] at sameCount
  exact ⟨parts, rfl, spacing, sameCount⟩

/-- Ink stands in the text of a leaf. -/
theorem exists_leaf_of_write {init rest : List Char} {character : Char}
    (ink : isInk character = true) (same : write leaves = init ++ character :: rest) :
    ∃ front first tail back, leaves = front ++ text (first ++ character :: tail) :: back ∧
      isSpacing character = false ∧ init = write front ++ collapse first ∧
        rest = collapse tail ++ write back := by
  induction leaves generalizing init with
  | nil => simp [write] at same
  | cons leaf others ih =>
      have behind {init : List Char} (same : write others = init ++ character :: rest) :
          ∃ front first tail back,
            leaf :: others = front ++ text (first ++ character :: tail) :: back ∧
              isSpacing character = false ∧ leaf.written ++ init = write front ++ collapse first ∧
                rest = collapse tail ++ write back := by
        obtain ⟨front, first, tail, back, rfl, notSpacing, rfl, rfl⟩ := ih same
        exact ⟨leaf :: front, first, tail, back, rfl, notSpacing,
          by rw [write_cons, List.append_assoc], rfl⟩
      rw [write_cons] at same
      rcases List.append_eq_append_iff.1 same with ⟨init, rfl, further⟩ | ⟨inLeaf, cut, further⟩
      · exact behind further
      · cases inLeaf with
        | nil =>
            rw [List.append_nil] at cut
            have alone : write others = [] ++ character :: rest := further.symm
            have found := behind alone
            rwa [List.append_nil, cut] at found
        | cons other inLeaf =>
            obtain ⟨rfl, rfl⟩ := List.cons.inj further
            cases leaf with
            | lineEnd =>
                have isFeed : character ∈ lineEnd.written := by rw [cut]; simp
                rw [List.mem_singleton.1 isFeed] at ink
                cases ink
            | text content =>
                obtain ⟨first, tail, rfl, notSpacing, rfl, rfl⟩ :=
                  exists_of_collapseFrom_eq (ne_space_of_isInk ink) cut
                exact ⟨[], first, tail, others, rfl, notSpacing, rfl, rfl⟩

theorem write_split {left : Char} (notSpacing : isSpacing left = false) (front back : List Leaf)
    (first tail : List Char) : write (front ++ text (first ++ left :: tail) :: back) =
      write (front ++ [text (first ++ [left])]) ++ write (text tail :: back) := by
  have alone : collapse (first ++ [left]) = collapse first ++ [left] :=
    collapse_append notSpacing first []
  simp only [write_append, write_cons, written_text, collapse_append notSpacing first tail, alone]
  simp [write]

/-- Spacing that goes on over leaves writes a gap. -/
theorem GapBetween.gapAt (gap : GapBetween leaves before after) :
    GapAt (write leaves) (write before) (write after) := by
  obtain @⟨front, back, first, tail, head, last, between, left, right, leftText, rightText, spacing,
    many⟩ := gap
  have ends : collapse (right :: last) = right :: collapse last :=
    collapse_append rightText [] last
  refine ⟨⟨_, many, ?_⟩, ?_, ?_⟩
  · rw [← write_of_spacing spacing, write_split leftText]
    simp only [write_append, write_cons, written_text, collapse_append rightText, ends,
      List.map_append, List.map_cons, List.map_nil, List.append_assoc]
    simp [write]
  · rw [write_append, write_cons, written_text, collapse_append leftText]
    simp [write, collapse, collapseFrom, isInk_of_notSpacing leftText]
  · rw [write_cons, written_text, ends]
    exact isInk_of_notSpacing rightText

/-- A gap in what leaves write is spacing that goes on over leaves. -/
theorem exists_gapBetween {init rest : List Char} (gap : GapAt (write leaves) init rest) :
    ∃ before after, GapBetween leaves before after ∧ write before = init ∧ write after = rest := by
  obtain ⟨⟨count, many, same⟩, last, first⟩ := gap
  obtain ⟨left, isLeft, leftInk⟩ := (Option.any_eq_true _ _).1 last
  obtain ⟨right, isRight, rightInk⟩ := (Option.any_eq_true _ _).1 first
  obtain ⟨init, rfl⟩ := List.getLast?_eq_some_iff.1 isLeft
  obtain ⟨rest, rfl⟩ := List.head?_eq_some_iff.1 isRight
  rw [List.append_assoc, List.append_assoc, List.singleton_append] at same
  obtain ⟨front, first, tail, back, rfl, leftText, rfl, spaces⟩ := exists_leaf_of_write leftInk same
  rw [← written_text, ← write_cons] at spaces
  obtain ⟨middle, head, last, others, behind, rightText, alone, rfl⟩ :=
    exists_leaf_of_write rightInk spaces.symm
  have blanks : write (middle ++ [text head]) = List.replicate count ' ' := by
    rw [alone, write_append, write_cons, written_text]
    exact congrArg _ (List.append_nil _)
  obtain ⟨parts, sameParts, spacing, rfl⟩ := exists_parts_of_write_eq blanks
  obtain ⟨inner, ends, rfl, rfl, isHead⟩ := List.map_eq_append_iff.1 sameParts.symm
  obtain ⟨part, rfl, isPart⟩ := List.map_eq_singleton_iff.1 isHead
  obtain rfl := Leaf.text.inj isPart
  cases inner with
  | nil =>
      have few := List.length_filter_le (!·.isEmpty) ([] ++ [part])
      exact absurd (many.trans few) (by simp)
  | cons opening between =>
      rw [List.map_cons, List.cons_append] at behind
      obtain ⟨isTail, rfl⟩ := List.cons.inj behind
      obtain rfl := Leaf.text.inj isTail
      refine ⟨_, _, .mk leftText rightText spacing many, ?_, ?_⟩
      · rw [write_append, write_cons, written_text, collapse_append leftText]
        simp [write, collapse, collapseFrom]
      · rw [write_cons, written_text]
        exact congrArg (· ++ write others) (collapse_append rightText [] last)

theorem hasGap_write : HasGap (write leaves) ↔ ∃ before after, GapBetween leaves before after := by
  rw [hasGap_iff]
  constructor
  · rintro ⟨_, _, gap⟩
    obtain ⟨before, after, between, -, -⟩ := exists_gapBetween gap
    exact ⟨before, after, between⟩
  · rintro ⟨before, after, between⟩
    exact ⟨_, _, between.gapAt⟩

theorem shows_written (leaf : Leaf) : Text.Shows leaf.written ↔ leaf.Shows := by
  have visible (text : List Char) : Text.Shows text ↔ Text.visible text ≠ [] := by
    simp [Text.Shows, Text.visible]
  cases leaf with
  | text content => rw [written_text, visible, visible_collapse, ← visible, Shows]
  | lineEnd =>
      refine iff_of_false ?_ id
      rintro ⟨character, member, shown⟩
      rw [List.mem_singleton.1 member] at shown
      cases shown

theorem shows_write : Text.Shows (write leaves) ↔ ∃ leaf ∈ leaves, leaf.Shows := by
  simp only [← shows_written]
  constructor
  · rintro ⟨character, member, shown⟩
    obtain ⟨leaf, leafMember, inLeaf⟩ := List.mem_flatMap.1 member
    exact ⟨leaf, leafMember, character, inLeaf, shown⟩
  · rintro ⟨leaf, leafMember, character, inLeaf, shown⟩
    exact ⟨character, List.mem_flatMap.2 ⟨leaf, leafMember, inLeaf⟩, shown⟩

/-- Two spaces are next to each other in the tidy text of leaves exactly if spacing goes on over
leaves between something visible. -/
theorem adjacent_tidy_write : [' ', ' '] <:+: Markup.tidy (write leaves) ↔
    ∃ before after, GapBetween leaves before after ∧ (∃ leaf ∈ before, leaf.Shows) ∧
      ∃ leaf ∈ after, leaf.Shows := by
  rw [adjacent_tidy_iff]
  constructor
  · rintro ⟨_, _, gap, shows, showsNext⟩
    obtain ⟨before, after, between, rfl, rfl⟩ := exists_gapBetween gap
    exact ⟨before, after, between, shows_write.1 shows, shows_write.1 showsNext⟩
  · rintro ⟨before, after, between, shows, showsNext⟩
    exact ⟨_, _, between.gapAt, shows_write.2 shows, shows_write.2 showsNext⟩

end Leaf

end MessageBlocks
