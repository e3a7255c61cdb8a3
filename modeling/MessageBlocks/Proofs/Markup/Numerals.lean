import Mathlib.Data.List.Induction
import Mathlib.Data.List.Shortlex
import Mathlib.Data.Nat.Digits.Defs
import Mathlib.Order.Monotone.Basic
import MessageBlocks.Proofs.Markup.Markers
import MessageBlocks.Proofs.Number.Digits

/-!
# Reading numbered markers

The number of an item can be read off its marker in every style, so items with different numbers
have different markers. Letters are the digits from one to twenty-six in base twenty-six. There is
no letter for zero, so every text of letters stands for a number of its own, and numbers have the
order of their texts by length and then by the alphabet. Roman letters add up, apart from those in
front of a greater one. Numbers without letters are decimal, and a decimal has no letters.
-/

namespace MessageBlocks

namespace Numbering

/-! ## Letters -/

/-- Whether a letter is one of the twenty-six from a first one on. -/
def IsLetter (first letter : Char) : Prop :=
  first.toNat ≤ letter.toNat ∧ letter.toNat < first.toNat + 26

/-- The value of a letter as a digit. The first letter counts as one. -/
def letterDigit (first letter : Char) : ℕ :=
  letter.toNat - first.toNat + 1

/-- The number that letters stand for as digits in base twenty-six. -/
def lettersValue (first : Char) (letters : List Char) : ℕ :=
  Nat.ofDigits 26 (letters.reverse.map (letterDigit first))

section Letters

variable {first : Char} {letters others : List Char}

theorem lettersValue_concat (letters : List Char) (letter : Char) :
    lettersValue first (letters ++ [letter]) =
      letterDigit first letter + 26 * lettersValue first letters := by
  rw [lettersValue, List.reverse_append, List.reverse_singleton, List.singleton_append,
    List.map_cons, Nat.ofDigits_cons]
  rfl

theorem lettersValue_cons (letter : Char) (letters : List Char) :
    lettersValue first (letter :: letters) =
      lettersValue first letters + 26 ^ letters.length * letterDigit first letter := by
  rw [lettersValue, List.reverse_cons, List.map_append, Nat.ofDigits_append, List.length_map,
    List.length_reverse, List.map_singleton, Nat.ofDigits_singleton]
  rfl

theorem alpha_succ (number : ℕ) :
    alpha first (number + 1) =
      alpha first (number / 26) ++ [Char.ofNat (first.toNat + number % 26)] := by
  rw [alpha, alphaReversed, List.reverse_cons]
  rfl

theorem letterDigit_bounds {letter : Char} (isLetter : IsLetter first letter) :
    1 ≤ letterDigit first letter ∧ letterDigit first letter ≤ 26 := by
  obtain ⟨least, most⟩ := isLetter
  rw [letterDigit]
  omega

theorem letterDigit_lt {letter other : Char} (isLetter : IsLetter first letter)
    (before : letter < other) : letterDigit first letter < letterDigit first other := by
  have codes : letter.toNat < other.toNat := UInt32.lt_iff_toNat_lt.1 (Char.lt_def.1 before)
  have least := isLetter.1
  rw [letterDigit, letterDigit]
  omega

/-- Where twenty-six characters follow each other, the letter for a digit has this digit. -/
theorem letterDigit_ofNat (low : first.toNat + 26 ≤ 0xD800) {offset : ℕ} (small : offset < 26) :
    IsLetter first (Char.ofNat (first.toNat + offset)) ∧
      letterDigit first (Char.ofNat (first.toNat + offset)) = offset + 1 := by
  have code : (Char.ofNat (first.toNat + offset)).toNat = first.toNat + offset := by
    rw [Char.ofNat, dif_pos (.inl (by omega))]
    rfl
  rw [IsLetter, letterDigit, code]
  omega

theorem isLetter_of_mem_alpha (low : first.toNat + 26 ≤ 0xD800) (number : ℕ) :
    ∀ letter ∈ alpha first number, IsLetter first letter :=
  forall_mem_alpha (fun _ small => (letterDigit_ofNat low small).1) number

/-- The letters of a number read as digits give the number back. -/
theorem lettersValue_alpha (low : first.toNat + 26 ≤ 0xD800) (number : ℕ) :
    lettersValue first (alpha first number) = number := by
  induction number using Nat.strong_induction_on with
  | _ number ih =>
      cases number with
      | zero => simp [alpha, alphaReversed, lettersValue]
      | succ number =>
          have digit := (letterDigit_ofNat low (Nat.mod_lt number (by decide))).2
          rw [alpha_succ, lettersValue_concat, ih (number / 26) (by omega), digit]
          omega

/-- Letters are those of the number that they stand for. -/
theorem alpha_lettersValue (areLetters : ∀ letter ∈ letters, IsLetter first letter) :
    alpha first (lettersValue first letters) = letters := by
  induction letters using List.reverseRecOn with
  | nil => simp [alpha, alphaReversed, lettersValue]
  | append_singleton letters letter ih =>
      obtain ⟨others, last⟩ := List.forall_mem_append.1 areLetters
      obtain ⟨least, most⟩ := last letter List.mem_cons_self
      have value : lettersValue first (letters ++ [letter]) =
          letter.toNat - first.toNat + 26 * lettersValue first letters + 1 := by
        rw [lettersValue_concat, letterDigit]
        omega
      have digit : (letter.toNat - first.toNat + 26 * lettersValue first letters) % 26 =
          letter.toNat - first.toNat := by omega
      have rest : (letter.toNat - first.toNat + 26 * lettersValue first letters) / 26 =
          lettersValue first letters := by omega
      rw [value, alpha_succ, digit, rest, ih others, Nat.add_sub_cancel' least, Char.ofNat_toNat]

theorem lettersValue_pos (areLetters : ∀ letter ∈ letters, IsLetter first letter)
    (filled : letters ≠ []) : 0 < lettersValue first letters := by
  by_contra notAbove
  have back := alpha_lettersValue areLetters
  rw [Nat.eq_zero_of_not_pos notAbove] at back
  exact filled (back.symm.trans (by simp [alpha, alphaReversed]))

/-- The least number with a given count of letters. -/
def leastOfLength : ℕ → ℕ
  | 0 => 0
  | length + 1 => 26 ^ length + leastOfLength length

theorem leastOfLength_mono : Monotone leastOfLength :=
  monotone_nat_of_le_succ fun _ => Nat.le_add_left _ _

theorem lettersValue_bounds (areLetters : ∀ letter ∈ letters, IsLetter first letter) :
    leastOfLength letters.length ≤ lettersValue first letters ∧
      lettersValue first letters < leastOfLength (letters.length + 1) := by
  induction letters with
  | nil => exact ⟨le_rfl, Nat.one_pos⟩
  | cons letter rest ih =>
      obtain ⟨isLetter, others⟩ := List.forall_mem_cons.1 areLetters
      obtain ⟨least, most⟩ := letterDigit_bounds isLetter
      obtain ⟨above, below⟩ := ih others
      have atLeast := Nat.mul_le_mul_left (26 ^ rest.length) least
      have atMost := Nat.mul_le_mul_left (26 ^ rest.length) most
      rw [lettersValue_cons, List.length_cons]
      simp only [leastOfLength, Nat.pow_succ] at below ⊢
      omega

/-- Letters that come first in the alphabet stand for less than as many others. -/
theorem lettersValue_lt_of_lex (areLetters : ∀ letter ∈ letters, IsLetter first letter)
    (othersAre : ∀ letter ∈ others, IsLetter first letter)
    (sameLength : letters.length = others.length) (before : List.Lex (· < ·) letters others) :
    lettersValue first letters < lettersValue first others := by
  induction before with
  | nil => cases sameLength
  | @cons letter rest otherRest _ ih =>
      have sameRest : rest.length = otherRest.length := Nat.succ.inj sameLength
      have less := ih (List.forall_mem_cons.1 areLetters).2 (List.forall_mem_cons.1 othersAre).2
        sameRest
      rw [lettersValue_cons, lettersValue_cons, sameRest]
      omega
  | @rel letter rest other otherRest smaller =>
      -- the greater digit outweighs whatever stands behind the smaller one
      have sameRest : rest.length = otherRest.length := Nat.succ.inj sameLength
      obtain ⟨isLetter, restAre⟩ := List.forall_mem_cons.1 areLetters
      have below := (lettersValue_bounds restAre).2
      have above := (lettersValue_bounds (List.forall_mem_cons.1 othersAre).2).1
      have digits := Nat.mul_le_mul_left (26 ^ otherRest.length) (letterDigit_lt isLetter smaller)
      rw [sameRest, leastOfLength] at below
      rw [Nat.mul_succ] at digits
      rw [lettersValue_cons, lettersValue_cons, sameRest]
      omega

theorem lettersValue_lt_of_shortlex (areLetters : ∀ letter ∈ letters, IsLetter first letter)
    (othersAre : ∀ letter ∈ others, IsLetter first letter)
    (before : List.Shortlex (· < ·) letters others) :
    lettersValue first letters < lettersValue first others := by
  rcases List.shortlex_def.1 before with shorter | ⟨sameLength, lex⟩
  · calc
      lettersValue first letters < leastOfLength (letters.length + 1) :=
        (lettersValue_bounds areLetters).2
      _ ≤ leastOfLength others.length := leastOfLength_mono shorter
      _ ≤ lettersValue first others := (lettersValue_bounds othersAre).1
  · exact lettersValue_lt_of_lex areLetters othersAre sameLength lex

/-- Numbers have the order of their letters, by length and then by the alphabet. -/
theorem shortlex_alpha_iff (low : first.toNat + 26 ≤ 0xD800) {number other : ℕ} :
    List.Shortlex (· < ·) (alpha first number) (alpha first other) ↔ number < other := by
  have increases {number other : ℕ}
      (before : List.Shortlex (· < ·) (alpha first number) (alpha first other)) :
      number < other := by
    have less := lettersValue_lt_of_shortlex (isLetter_of_mem_alpha low number)
      (isLetter_of_mem_alpha low other) before
    rwa [lettersValue_alpha low, lettersValue_alpha low] at less
  refine ⟨increases, fun less => ?_⟩
  by_contra notBefore
  have notAfter : ¬ List.Shortlex (· < ·) (alpha first other) (alpha first number) :=
    fun after => less.asymm (increases after)
  have same := Std.Trichotomous.trichotomous _ _ notBefore notAfter
  have values := congrArg (lettersValue first) same
  rw [lettersValue_alpha low, lettersValue_alpha low] at values
  exact less.ne values

end Letters

/-! ## Roman numerals -/

/-- The value of a roman letter, small or capital. -/
def romanDigit (letter : Char) : ℕ :=
  match letter.toLower with
  | 'i' => 1
  | 'v' => 5
  | 'x' => 10
  | 'l' => 50
  | 'c' => 100
  | 'd' => 500
  | 'm' => 1000
  | _ => 0

/-- The number that roman letters stand for. A letter in front of a greater one is taken off. -/
def romanValue : List Char → ℤ
  | [] => 0
  | [letter] => romanDigit letter
  | letter :: next :: rest =>
      (if romanDigit letter < romanDigit next then -(romanDigit letter : ℤ)
        else romanDigit letter) + romanValue (next :: rest)

/-- Whether the last letter of a text is not taken off when another text follows. -/
def EndsBefore (text following : List Char) : Prop :=
  ∀ last ∈ text.getLast?, ∀ next ∈ following.head?, romanDigit next ≤ romanDigit last

-- The instance is named, lest all characters there are be tried.
instance (text following : List Char) : Decidable (EndsBefore text following) :=
  @Option.decidableForallMem _ (fun last => ∀ next ∈ following.head?,
    romanDigit next ≤ romanDigit last) (fun _ => Option.decidableForallMem _) _

theorem romanValue_append {text following : List Char} (ends : EndsBefore text following) :
    romanValue (text ++ following) = romanValue text + romanValue following := by
  induction text using romanValue.induct with
  | case1 => exact (Int.zero_add _).symm
  | case2 letter =>
      cases following with
      | nil => exact (Int.add_zero _).symm
      | cons next rest =>
          have kept : ¬ romanDigit letter < romanDigit next :=
            not_lt.2 (ends letter rfl next rfl)
          rw [List.singleton_append, romanValue, romanValue, if_neg kept]
  | case3 letter next rest ih =>
      have sameEnd : (letter :: next :: rest).getLast? = (next :: rest).getLast? :=
        List.getLast?_cons_cons
      rw [EndsBefore, sameEnd] at ends
      rw [List.cons_append, List.cons_append, romanValue, romanValue, ← List.cons_append,
        ih ends, Int.add_assoc]

theorem romanValue_map {text : List Char} {convert : Char → Char}
    (same : ∀ letter ∈ text, romanDigit (convert letter) = romanDigit letter) :
    romanValue (text.map convert) = romanValue text := by
  induction text using romanValue.induct with
  | case1 => rfl
  | case2 letter => exact congrArg Int.ofNat (same letter List.mem_cons_self)
  | case3 letter next rest ih =>
      obtain ⟨sameLetter, sameRest⟩ := List.forall_mem_cons.1 same
      rw [List.map_cons, List.map_cons, romanValue, romanValue, sameLetter,
        sameRest next List.mem_cons_self, ← List.map_cons, ih sameRest]

/-- Numerals whose values add up in every text in which they stand in their order. -/
structure AddUp (numerals : List (ℕ × List Char)) : Prop where
  filled : ∀ numeral ∈ numerals, numeral.2 ≠ []
  value : ∀ numeral ∈ numerals, romanValue numeral.2 = numeral.1
  again : ∀ numeral ∈ numerals, EndsBefore numeral.2 numeral.2
  inOrder : numerals.Pairwise fun earlier later => EndsBefore earlier.2 later.2

theorem addUp_romanNumerals : AddUp romanNumerals where
  filled := by decide
  value := by decide
  again := by decide
  inOrder := by decide

theorem romanValue_copies {numeral following : List Char} (filled : numeral ≠ [])
    (again : EndsBefore numeral numeral) (ends : EndsBefore numeral following) (count : ℕ) :
    romanValue ((List.replicate count numeral).flatten ++ following) =
      count * romanValue numeral + romanValue following := by
  induction count with
  | zero => simp
  | succ count ih =>
      have endsBeforeRest :
          EndsBefore numeral ((List.replicate count numeral).flatten ++ following) := by
        cases count with
        | zero => exact ends
        | succ count =>
            rwa [EndsBefore, List.replicate_succ, List.flatten_cons, List.append_assoc,
              List.head?_append_of_ne_nil _ filled]
      rw [List.replicate_succ, List.flatten_cons, List.append_assoc,
        romanValue_append endsBeforeRest, ih, Int.natCast_succ, Int.add_mul, Int.one_mul]
      omega

/-- A number in numerals begins as one of them does. -/
theorem exists_of_head?_romanFrom {numerals : List (ℕ × List Char)}
    (filled : ∀ numeral ∈ numerals, numeral.2 ≠ []) {number : ℕ} {letter : Char}
    (opens : letter ∈ (romanFrom number numerals).head?) :
    ∃ numeral ∈ numerals, letter ∈ numeral.2.head? := by
  induction numerals generalizing number with
  | nil => cases opens
  | cons numeral rest ih =>
      obtain ⟨value, text⟩ := numeral
      obtain ⟨textFilled, restFilled⟩ := List.forall_mem_cons.1 filled
      rw [romanFrom] at opens
      cases copies : number / value with
      | zero =>
          rw [copies] at opens
          obtain ⟨other, member, starts⟩ := ih restFilled opens
          exact ⟨other, List.mem_cons_of_mem _ member, starts⟩
      | succ count =>
          rw [copies, List.replicate_succ, List.flatten_cons, List.append_assoc,
            List.head?_append_of_ne_nil _ textFilled] at opens
          exact ⟨_, List.mem_cons_self, opens⟩

/-- The value of a number in numerals and what they leave over make up the number. -/
theorem romanValue_romanFrom {numerals : List (ℕ × List Char)} (addUp : AddUp numerals)
    (number : ℕ) :
    romanValue (romanFrom number numerals) +
      (numerals.foldl (fun rest numeral => rest % numeral.1) number : ℕ) = number := by
  induction numerals generalizing number with
  | nil => exact Int.zero_add _
  | cons numeral rest ih =>
      obtain ⟨value, text⟩ := numeral
      obtain ⟨filled, restFilled⟩ := List.forall_mem_cons.1 addUp.filled
      obtain ⟨worth, restWorth⟩ := List.forall_mem_cons.1 addUp.value
      obtain ⟨again, restAgain⟩ := List.forall_mem_cons.1 addUp.again
      obtain ⟨ends, restInOrder⟩ := List.pairwise_cons.1 addUp.inOrder
      have endsBeforeRest : EndsBefore text (romanFrom (number % value) rest) := by
        intro last isLast next opens
        obtain ⟨other, member, starts⟩ := exists_of_head?_romanFrom restFilled opens
        exact ends other member last isLast next starts
      have following := ih ⟨restFilled, restWorth, restAgain, restInOrder⟩ (number % value)
      rw [romanFrom, romanValue_copies filled again endsBeforeRest, worth, List.foldl_cons,
        Int.add_assoc, following]
      exact_mod_cast Nat.div_add_mod' number value

/-- The letters of a number in capitals have the values of the small ones. -/
theorem toUpper_of_mem_roman {number : ℕ} {letter : Char} (member : letter ∈ roman number) :
    letter.isAlpha = true ∧ letter.toUpper.isAlpha = true ∧
      romanDigit letter.toUpper = romanDigit letter := by
  have each : ∀ numeral ∈ romanNumerals, numeral.2.all (fun letter => letter.isAlpha &&
      letter.toUpper.isAlpha && romanDigit letter.toUpper == romanDigit letter) = true := by decide
  obtain ⟨numeral, numeralMember, inNumeral⟩ := IsMarkerText.mem_romanNumerals _ _ member
  have ofLetter := List.all_eq_true.1 (each numeral numeralMember) letter inNumeral
  rwa [Bool.and_eq_true, Bool.and_eq_true, beq_iff_eq, and_assoc] at ofLetter

theorem romanValue_roman (number : ℕ) : romanValue (roman number) = number := by
  have whole := romanValue_romanFrom addUp_romanNumerals number
  have nothingLeft : romanNumerals.foldl (fun rest numeral => rest % numeral.1) number = 0 := by
    simp only [romanNumerals, List.foldl_cons, List.foldl_nil, Nat.mod_one]
  rwa [nothingLeft, Int.ofNat_zero, Int.add_zero] at whole

example : romanValue "mcmxciv".toList = 1994 := by decide

/-! ## All styles -/

/-- The number that a text in a style stands for. A text that is not all letters is decimal. -/
def read (numbering : Numbering) (text : List Char) : ℤ :=
  if text.all Char.isAlpha then
    match numbering with
    | .lowerAlpha => lettersValue 'a' text
    | .upperAlpha => lettersValue 'A' text
    | .decimal | .lowerRoman | .upperRoman => romanValue text
  else Number.ofIntText text

theorem not_isAlpha_of_isDigit {character : Char} (isDigit : character.isDigit = true) :
    ¬ character.isAlpha = true := by
  simp only [Char.isDigit, Bool.and_eq_true, decide_eq_true_eq, ge_iff_le,
    UInt32.le_iff_toNat_le] at isDigit
  have codes : '9'.val.toNat < 'A'.val.toNat ∧ '9'.val.toNat < 'a'.val.toNat := by decide
  intro isAlpha
  have atLeast : 'A'.val ≤ character.val ∨ 'a'.val ≤ character.val := by
    rcases Bool.or_eq_true_iff.1 isAlpha with upper | lower
    · exact .inl (of_decide_eq_true upper).1
    · exact .inr (of_decide_eq_true (Bool.and_eq_true_iff.1 lower).1)
  rw [UInt32.le_iff_toNat_le, UInt32.le_iff_toNat_le] at atLeast
  omega

theorem read_intText (numbering : Numbering) (number : ℤ) :
    numbering.read (Number.intText number) = number := by
  have notLetters : (Number.intText number).all Char.isAlpha = false := by
    rw [List.all_eq_false]
    cases number with
    | ofNat magnitude =>
        obtain ⟨digit, member⟩ := List.exists_mem_of_ne_nil _ (Number.digits_ne_nil magnitude)
        exact ⟨digit, member, not_isAlpha_of_isDigit (Number.isDigit_of_mem_digits member)⟩
    | negSucc magnitude => exact ⟨'-', List.mem_cons_self, by decide⟩
  unfold read
  rw [notLetters, if_neg Bool.false_ne_true, Number.ofIntText_intText]

theorem read_positiveText (numbering : Numbering) (number : ℕ) :
    numbering.read (numbering.positiveText number) = number := by
  have decimal : numbering.read (Number.digits number) = number := numbering.read_intText number
  have lower : ∀ letter ∈ alpha 'a' number, letter.isAlpha = true :=
    forall_mem_alpha (by decide) number
  have upper : ∀ letter ∈ alpha 'A' number, letter.isAlpha = true :=
    forall_mem_alpha (by decide) number
  have small : (roman number).all Char.isAlpha = true :=
    List.all_eq_true.2 fun _ member => (toUpper_of_mem_roman member).1
  have capital : ((roman number).map Char.toUpper).all Char.isAlpha = true := by
    rw [List.all_map, List.all_eq_true]
    exact fun _ member => (toUpper_of_mem_roman member).2.1
  cases numbering with
  | decimal => exact decimal
  | lowerAlpha =>
      rw [positiveText, read, if_pos (List.all_eq_true.2 lower)]
      exact congrArg Int.ofNat (lettersValue_alpha (by decide) number)
  | upperAlpha =>
      rw [positiveText, read, if_pos (List.all_eq_true.2 upper)]
      exact congrArg Int.ofNat (lettersValue_alpha (by decide) number)
  | lowerRoman =>
      rw [positiveText]
      split
      · exact decimal
      · rw [read, if_pos small]
        exact romanValue_roman number
  | upperRoman =>
      rw [positiveText]
      split
      · exact decimal
      · rw [read, if_pos capital]
        have sameDigits : ∀ letter ∈ roman number, romanDigit letter.toUpper = romanDigit letter :=
          fun _ member => (toUpper_of_mem_roman member).2.2
        exact (romanValue_map sameDigits).trans (romanValue_roman number)

/-- The text of a number is read back in every style. -/
theorem read_text (numbering : Numbering) (number : Int64) :
    numbering.read (numbering.text number) = number.toInt := by
  rw [text]
  split
  · next positive =>
      rw [read_positiveText]
      exact Int.toNat_of_nonneg positive.le
  · exact numbering.read_intText number.toInt

theorem text_injective (numbering : Numbering) : Function.Injective numbering.text := by
  intro number other same
  have numbers := congrArg numbering.read same
  rw [read_text, read_text] at numbers
  exact Int64.toInt_inj.1 numbers

/-- A way to write positive numbers as digits from one to twenty-six, with the letters from a first
one on: each text of such letters is that of exactly the number for which it stands, and numbers
have the order of their texts by length and then by the alphabet. -/
structure CountsInLetters (first : Char) (text : Int64 → List Char) : Prop where
  reads : ∀ number, 0 < number → text number ≠ [] ∧
    (∀ letter ∈ text number, IsLetter first letter) ∧
    (lettersValue first (text number) : ℤ) = number.toInt
  covers : ∀ letters, letters ≠ [] → (∀ letter ∈ letters, IsLetter first letter) →
    lettersValue first letters < 2 ^ 63 → ∃ number, 0 < number ∧ text number = letters
  order : ∀ number other, 0 < number → 0 < other →
    (number < other ↔ List.Shortlex (· < ·) (text number) (text other))

theorem countsInLetters {first : Char} (low : first.toNat + 26 ≤ 0xD800)
    {text : Int64 → List Char}
    (isAlpha : ∀ number, 0 < number → text number = alpha first number.toInt.toNat) :
    CountsInLetters first text := by
  have toNat {number : Int64} (positive : 0 < number) :
      0 < number.toInt ∧ (number.toInt.toNat : ℤ) = number.toInt := by
    have above : 0 < number.toInt := Int64.lt_iff_toInt_lt.1 positive
    exact ⟨above, Int.toNat_of_nonneg above.le⟩
  constructor
  case reads =>
    intro number positive
    obtain ⟨above, same⟩ := toNat positive
    have value := lettersValue_alpha low number.toInt.toNat
    rw [isAlpha number positive]
    refine ⟨fun empty => ?_, isLetter_of_mem_alpha low _, by rw [value, same]⟩
    rw [empty] at value
    have zero : number.toInt.toNat = 0 := value.symm
    omega
  case covers =>
    intro letters filled areLetters small
    have back := Int64.toInt_ofNat_of_lt small
    have positive : (0 : Int64) < Int64.ofNat (lettersValue first letters) := by
      rw [Int64.lt_iff_toInt_lt, back, Int64.toInt_zero]
      exact_mod_cast lettersValue_pos areLetters filled
    refine ⟨_, positive, ?_⟩
    rw [isAlpha _ positive, back, Int.toNat_natCast, alpha_lettersValue areLetters]
  case order =>
    intro number other positive otherPositive
    obtain ⟨-, same⟩ := toNat positive
    obtain ⟨-, otherSame⟩ := toNat otherPositive
    rw [isAlpha number positive, isAlpha other otherPositive, shortlex_alpha_iff low,
      Int64.lt_iff_toInt_lt]
    omega

end Numbering

/-- No two different numbers have the same text in any style, so no two of them have the same marker
in any ordered list. In letters the positive numbers are written in the bijective base
twenty-six. -/
theorem markers_tell_numbers_apart :
    (∀ numbering : Numbering, Function.Injective numbering.text) ∧
      (∀ (numbering : Numbering) (start : Int64) (depth : ℕ),
        Function.Injective ((ListKind.ordered numbering start).marker depth)) ∧
      Numbering.CountsInLetters 'a' Numbering.lowerAlpha.text ∧
      Numbering.CountsInLetters 'A' Numbering.upperAlpha.text := by
  have positiveText (numbering : Numbering) (number : Int64) (positive : 0 < number) :
      numbering.text number = numbering.positiveText number.toInt.toNat :=
    if_pos (Int64.lt_iff_toInt_lt.1 positive)
  refine ⟨Numbering.text_injective, fun numbering start depth number other same => ?_,
    Numbering.countsInLetters (by decide) (positiveText .lowerAlpha),
    Numbering.countsInLetters (by decide) (positiveText .upperAlpha)⟩
  exact numbering.text_injective (List.append_cancel_right same)

end MessageBlocks
