import MessageBlocks.Number.Reading
import MessageBlocks.Number.Text
import Mathlib.Algebra.Ring.Nat

/-!
# Digits read back

The digits of a number are read back to it, also behind a sign and in front of a text that does not
begin with a digit.
-/

namespace MessageBlocks.Number

theorem ofDigits_digits (number : ℕ) : ofDigits (digits number) = number :=
  Nat.ofDigitChars_ten_toDigits

theorem ofDigits_append (first second : List Char) :
    ofDigits (first ++ second) = ofDigits first * 10 ^ second.length + ofDigits second := by
  have split : ofDigits (first ++ second) = Nat.ofDigitChars 10 second (ofDigits first) :=
    Nat.ofDigitChars_append 0
  rw [split, Nat.ofDigitChars_eq_ofDigitChars_zero, mul_comm]
  rfl

theorem ofDigits_replicate_zero (count : ℕ) : ofDigits (List.replicate count '0') = 0 := by
  have zeros : ofDigits (List.replicate count '0') = 10 ^ count * 0 :=
    Nat.ofDigitChars_replicate_zero
  rw [zeros, mul_zero]

theorem digits_ne_nil (number : ℕ) : digits number ≠ [] :=
  Nat.toDigits_ne_nil

theorem isDigit_of_mem_digits {number : ℕ} {character : Char}
    (member : character ∈ digits number) : character.isDigit = true :=
  Nat.isDigit_of_mem_toDigits (by decide) (by decide) member

theorem spanDigits_append {text : List Char}
    (isDigits : ∀ character ∈ text, character.isDigit = true) (rest : List Char)
    (stops : ∀ character ∈ rest.head?, character.isDigit = false) :
    spanDigits (text ++ rest) = (text, rest) := by
  rw [spanDigits, List.takeWhile_append_of_pos isDigits, List.dropWhile_append_of_pos isDigits]
  cases rest with
  | nil => rw [List.takeWhile_nil, List.dropWhile_nil, List.append_nil]
  | cons character rest =>
      have stop : character.isDigit = false := stops character rfl
      rw [List.takeWhile_cons_of_neg (by simp [stop]), List.dropWhile_cons_of_neg (by simp [stop]),
        List.append_nil]

theorem spanDigits_digits {text : List Char}
    (isDigits : ∀ character ∈ text, character.isDigit = true) : spanDigits text = (text, []) := by
  have spanned := spanDigits_append isDigits [] (by simp)
  rwa [List.append_nil] at spanned

/-- The integer that a decimal with an optional sign stands for. -/
def ofIntText (text : List Char) : Int :=
  match spanSign text with
  | (true, magnitude) => -(ofDigits magnitude : Int)
  | (false, magnitude) => ofDigits magnitude

theorem ofIntText_intText (number : Int) : ofIntText (intText number) = number := by
  cases number with
  | ofNat magnitude =>
      have unsigned : spanSign (digits magnitude) = (false, digits magnitude) := by
        cases written : digits magnitude with
        | nil => rfl
        | cons first rest =>
            have isDigit : first.isDigit = true :=
              isDigit_of_mem_digits (written ▸ List.mem_cons_self)
            unfold spanSign
            split
            · next same => cases same; cases isDigit
            · next same => cases same; cases isDigit
            · rfl
      rw [intText, ofIntText, unsigned]
      exact congrArg Int.ofNat (ofDigits_digits magnitude)
  | negSucc magnitude =>
      have magnitude_eq := ofDigits_digits (magnitude + 1)
      simp only [intText, ofIntText, spanSign, magnitude_eq]
      rfl

end MessageBlocks.Number
