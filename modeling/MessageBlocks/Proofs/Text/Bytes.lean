import Mathlib.Data.String.Basic

/-!
# The order of bytes

Texts are compared by their bytes in UTF-8 as they are compared by their characters. The first byte
of a character says how many follow, and more of them stand for greater characters only. Among
characters with the same number of bytes the bytes are the digits of the code, the highest first.
-/

namespace MessageBlocks.Text

theorem ofNat_lt_ofNat_iff {first second : ℕ} (small : first < 256) (smallNext : second < 256) :
    UInt8.ofNat first < UInt8.ofNat second ↔ first < second := by
  rw [UInt8.lt_iff_toNat_lt, UInt8.toNat_ofNat_of_lt' small, UInt8.toNat_ofNat_of_lt' smallNext]

theorem ofNat_eq_ofNat_iff {first second : ℕ} (small : first < 256) (smallNext : second < 256) :
    UInt8.ofNat first = UInt8.ofNat second ↔ first = second := by
  rw [← UInt8.toNat_inj, UInt8.toNat_ofNat_of_lt' small, UInt8.toNat_ofNat_of_lt' smallNext]

/-- Characters are told apart by their bytes, whatever stands behind them. -/
theorem utf8EncodeChar_append_lt {first second : Char} (below : first < second)
    (rest others : List UInt8) :
    String.utf8EncodeChar first ++ rest < String.utf8EncodeChar second ++ others := by
  have codes : first.val.toNat < second.val.toNat := below
  have bound : second.val.toNat < 0x110000 := by
    have valid := second.valid
    simp only [UInt32.isValidChar, Nat.isValidChar] at valid
    omega
  -- The digits have the base 64, so each of them is taken from the one below it.
  have page (code : ℕ) : code / 4096 = code / 64 / 64 := (Nat.div_div_eq_div_mul code 64 64).symm
  have plane (code : ℕ) : code / 262144 = code / 64 / 64 / 64 := by
    rw [Nat.div_div_eq_div_mul, Nat.div_div_eq_div_mul]
  simp only [String.utf8EncodeChar, page, plane]
  generalize first.val.toNat = code at codes
  generalize second.val.toNat = next at codes bound
  split_ifs
  all_goals
    simp (disch := omega) only [List.cons_append, List.nil_append, List.cons_lt_cons_iff,
      ofNat_lt_ofNat_iff, ofNat_eq_ofNat_iff]
    omega

theorem flatMap_utf8EncodeChar_lt {first second : List Char} (below : first < second) :
    first.flatMap String.utf8EncodeChar < second.flatMap String.utf8EncodeChar := by
  induction first generalizing second with
  | nil =>
      cases second with
      | nil => exact absurd below (List.lt_irrefl [])
      | cons character rest =>
          rw [List.flatMap_nil, List.flatMap_cons]
          cases written : String.utf8EncodeChar character with
          | nil => exact absurd written String.utf8EncodeChar_ne_nil
          | cons byte more => exact List.nil_lt_cons byte _
  | cons character rest ih =>
      cases second with
      | nil => exact absurd below (List.not_lt_nil _)
      | cons other others =>
          rw [List.flatMap_cons, List.flatMap_cons]
          rcases List.cons_lt_cons_iff.1 below with apart | ⟨rfl, further⟩
          · exact utf8EncodeChar_append_lt apart _ _
          · exact List.append_left_lt (ih further)

/-- The bytes of a text in UTF-8. -/
def bytes (text : String) : List UInt8 :=
  text.toByteArray.data.toList

theorem bytes_eq_flatMap (text : String) :
    bytes text = text.toList.flatMap String.utf8EncodeChar := by
  conv_lhs => rw [← String.ofList_toList (s := text)]
  rw [bytes, String.toByteArray_ofList, List.utf8Encode, List.toList_data_toByteArray]

theorem bytes_lt_bytes_iff {first second : String} :
    bytes first < bytes second ↔ first < second := by
  have mono {first second : String} (below : first < second) : bytes first < bytes second := by
    rw [bytes_eq_flatMap, bytes_eq_flatMap]
    exact flatMap_utf8EncodeChar_lt (String.lt_iff.1 below)
  refine ⟨fun below => ?_, mono⟩
  rcases lt_trichotomy first second with before | rfl | after
  · exact before
  · exact absurd below (List.lt_irrefl _)
  · exact absurd below (List.lt_asymm (mono after))

theorem bytes_le_bytes_iff {first second : String} :
    bytes first ≤ bytes second ↔ first ≤ second := by
  rw [← List.not_lt, bytes_lt_bytes_iff, not_lt]

end MessageBlocks.Text
