import MessageBlocks.Calendar.Timestamp
import MessageBlocks.Markup.Token

/-!
# Brackets and line feeds in written text

No angle bracket comes out of the escape, and no line feed out of collapsed
spacing. The numbers and dates that the renderer makes itself have neither.
-/

namespace MessageBlocks

namespace Text

/-- The characters of the entities. -/
def entityLetters : List Char :=
  ['&', 'a', 'm', 'p', ';', 'l', 't', 'g']

theorem mem_escape {character : Char} {text : List Char} (member : character ∈ escape text) :
    character ∈ entityLetters ∨ (character ∈ text ∧ character ≠ '<' ∧ character ≠ '>') := by
  have entities :
      ∀ entity ∈ [['&', 'a', 'm', 'p', ';'], ['&', 'l', 't', ';'], ['&', 'g', 't', ';']],
        ∀ letter ∈ entity, letter ∈ entityLetters := by simp [entityLetters]
  obtain ⟨original, originalMember, written⟩ := List.mem_flatMap.1 member
  rw [escapeChar] at written
  split at written
  · exact .inl (entities _ (by decide) character written)
  · split at written
    · exact .inl (entities _ (by decide) character written)
    · split at written
      · exact .inl (entities _ (by decide) character written)
      · next notOpen notClose =>
          obtain rfl := List.mem_singleton.1 written
          exact .inr ⟨originalMember, notOpen, notClose⟩

theorem open_notMem_escape (text : List Char) : '<' ∉ escape text := by
  intro member
  rcases mem_escape member with entity | ⟨-, notOpen, -⟩
  · exact absurd entity (by decide)
  · exact notOpen rfl

theorem close_notMem_escape (text : List Char) : '>' ∉ escape text := by
  intro member
  rcases mem_escape member with entity | ⟨-, -, notClose⟩
  · exact absurd entity (by decide)
  · exact notClose rfl

/-- A character that is written as it is and stands in no entity is in the escaped text exactly if
it is in the text. -/
theorem mem_escape_iff {character : Char} {text : List Char} (alien : character ∉ entityLetters)
    (notOpen : character ≠ '<') (notClose : character ≠ '>') :
    character ∈ escape text ↔ character ∈ text := by
  constructor
  · intro member
    rcases mem_escape member with entity | ⟨original, -⟩
    · exact absurd entity alien
    · exact original
  · intro member
    have notAmpersand : character ≠ '&' := by
      rintro rfl
      exact alien List.mem_cons_self
    have written : escapeChar character = [character] := by
      simp [escapeChar, notAmpersand, notOpen, notClose]
    exact List.mem_flatMap.2 ⟨character, member, by simp [written]⟩

theorem lineFeed_mem_escape {text : List Char} : '\n' ∈ escape text ↔ '\n' ∈ text :=
  mem_escape_iff (by decide) (by decide) (by decide)

theorem lineFeed_notMem_collapse (text : List Char) : '\n' ∉ collapse text := by
  suffices ∀ inRun, '\n' ∉ collapseFrom inRun text from this false
  induction text with
  | nil => intro inRun; simp [collapseFrom]
  | cons character rest ih =>
      intro inRun
      rw [collapseFrom]
      split
      · split
        · exact ih true
        · simpa using ih true
      · next visible =>
          have notLineFeed : '\n' ≠ character := by
            rintro rfl
            exact visible rfl
          simpa [notLineFeed] using ih false

/-- Trimming adds no characters. -/
theorem mem_of_mem_trimBy {discard : Char → Bool} {character : Char} {text : List Char}
    (member : character ∈ trimBy discard text) : character ∈ text := by
  rw [trimBy, trimEndBy, List.mem_reverse] at member
  have inStart := (List.dropWhile_sublist discard).subset member
  exact (List.dropWhile_sublist discard).subset (List.mem_reverse.1 inStart)

end Text

/-- What the renderer makes itself: letters, digits, bullets and some punctuation. -/
def IsSober (text : List Char) : Prop :=
  ∀ character ∈ text, character ≠ '<' ∧ character ≠ '>' ∧ character ≠ '\n'

instance (text : List Char) : Decidable (IsSober text) :=
  List.decidableBAll _ _

namespace IsSober

theorem notMem {text : List Char} (sober : IsSober text) :
    '<' ∉ text ∧ '>' ∉ text ∧ '\n' ∉ text :=
  ⟨fun member => (sober _ member).1 rfl, fun member => (sober _ member).2.1 rfl,
    fun member => (sober _ member).2.2 rfl⟩

theorem append {first second : List Char} (sober : IsSober first) (other : IsSober second) :
    IsSober (first ++ second) := by
  intro character member
  exact (List.mem_append.1 member).elim (sober character) (other character)

theorem cons {first : Char} {rest : List Char}
    (sober : first ≠ '<' ∧ first ≠ '>' ∧ first ≠ '\n') (other : IsSober rest) :
    IsSober (first :: rest) := by
  intro character member
  rcases List.mem_cons.1 member with rfl | inRest
  · exact sober
  · exact other character inRest

/-- An escaped text is sober if it stands on one line. -/
theorem escaped {text : List Char} (oneLine : '\n' ∉ text) : IsSober (Text.escape text) := by
  intro character member
  refine ⟨?_, ?_, ?_⟩
  · rintro rfl
    exact Text.open_notMem_escape text member
  · rintro rfl
    exact Text.close_notMem_escape text member
  · rintro rfl
    exact oneLine (Text.lineFeed_mem_escape.1 member)

theorem digits (number : Nat) : IsSober (Number.digits number) := by
  intro character member
  have isDigit : character.isDigit = true :=
    Nat.isDigit_of_mem_toDigits (by decide) (by decide) member
  refine ⟨?_, ?_, ?_⟩ <;> rintro rfl <;> exact absurd isDigit (by decide)

theorem intText (number : Int) : IsSober (Number.intText number) := by
  cases number with
  | ofNat magnitude => exact digits magnitude
  | negSucc magnitude => exact cons (by decide) (digits (magnitude + 1))

theorem padded (places number : Nat) : IsSober (Date.padded places number) := by
  apply append _ (digits number)
  intro character member
  rw [List.eq_of_mem_replicate member]
  decide

theorem yearText (year : Int) : IsSober (Date.yearText year) := by
  rw [Date.yearText]
  split
  · exact cons (by decide) (padded _ _)
  · split
    · exact cons (by decide) (padded _ _)
    · exact padded _ _

theorem readable (seconds : Int) : IsSober (Timestamp.readable seconds) := by
  rw [Timestamp.readable]
  split
  · have date : IsSober (Timestamp.date seconds).text :=
      ((yearText _).append (cons (by decide) (padded _ _))).append (cons (by decide) (padded _ _))
    have clock : IsSober (Timestamp.clockText (Timestamp.secondOfDay seconds)) :=
      ((padded _ _).append (cons (by decide) (padded _ _))).append (cons (by decide) (padded _ _))
    exact (date.append (cons (by decide) clock)).append (by decide)
  · exact intText seconds

end IsSober

end MessageBlocks
