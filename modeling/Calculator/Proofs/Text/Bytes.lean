import Mathlib.Data.List.Basic

/-!
# The order of bytes

Texts are compared by their code points.  Their bytes in UTF-8 compare in the
same way: of two characters the one with the lower code point has the lower
bytes, whatever comes after them, since no encoding begins another one.
-/

namespace Calculator
namespace Text

/-- The bytes of a text in UTF-8. -/
def bytes (text : String) : List UInt8 :=
  text.toUTF8.data.toList

theorem bytes_eq_flatMap (text : String) :
    bytes text = text.toList.flatMap String.utf8EncodeChar := by
  conv => lhs; rw [← String.ofList_toList (s := text)]
  rw [bytes, String.toUTF8_eq_toByteArray, String.toByteArray_ofList,
    List.utf8Encode, List.data_toByteArray]

theorem toNat_val_lt (character : Char) : character.val.toNat < 0x110000 := by
  rcases character.valid with low | high
  · omega
  · exact high.2

/-- The character with the lower code point has the lower bytes. -/
theorem utf8EncodeChar_append_lt {first second : Char} (less : first < second)
    (after later : List UInt8) :
    String.utf8EncodeChar first ++ after <
      String.utf8EncodeChar second ++ later := by
  have code_lt : first.val.toNat < second.val.toNat := less
  have inRange := toNat_val_lt second
  unfold String.utf8EncodeChar
  generalize first.val.toNat = low at code_lt ⊢
  generalize second.val.toNat = high at code_lt inRange ⊢
  have byte : ∀ number < 256, (UInt8.ofNat number).toNat = number := by
    intro number small
    rw [UInt8.toNat_ofNat', Nat.mod_eq_of_lt small]
  -- The last two of four bytes count only if the first two are the same.
  have leading : low / 4096 < high / 4096 ∨ low / 4096 = high / 4096 := by
    omega
  simp only
  split_ifs <;>
    simp only [List.cons_append, List.nil_append, List.cons_lt_cons_iff,
      UInt8.lt_iff_toNat_lt, ← UInt8.toNat_inj] <;>
    simp (disch := omega) only [byte] <;>
    rcases leading with less | same <;> omega

theorem flatMap_utf8EncodeChar_lt {first second : List Char}
    (less : first < second) :
    first.flatMap String.utf8EncodeChar <
      second.flatMap String.utf8EncodeChar := by
  induction first generalizing second with
  | nil =>
      cases second with
      | nil => exact absurd less (List.lt_irrefl [])
      | cons head tail =>
          obtain ⟨byte, rest, bytes_eq⟩ := List.exists_cons_of_ne_nil
            (String.utf8EncodeChar_ne_nil (c := head))
          rw [List.flatMap_nil, List.flatMap_cons, bytes_eq]
          exact List.nil_lt_cons _ _
  | cons character rest induction =>
      cases second with
      | nil => exact absurd less (List.not_lt_nil _)
      | cons head tail =>
          rw [List.flatMap_cons, List.flatMap_cons]
          rcases List.cons_lt_cons_iff.mp less with below | ⟨rfl, behind⟩
          · exact utf8EncodeChar_append_lt below _ _
          · exact List.append_left_lt (induction behind)

/-- Texts have the order of their bytes. -/
theorem lt_iff_bytes_lt {first second : String} :
    first < second ↔ bytes first < bytes second := by
  have increases : ∀ {first second : String}, first < second →
      bytes first < bytes second := by
    intro first second less
    rw [bytes_eq_flatMap, bytes_eq_flatMap]
    exact flatMap_utf8EncodeChar_lt (String.lt_iff.mp less)
  refine ⟨increases, fun less => ?_⟩
  by_contra notLess
  rcases Std.le_iff_lt_or_eq.mp (String.not_lt.mp notLess) with above | rfl
  · exact List.lt_asymm less (increases above)
  · exact List.lt_irrefl _ less

end Text
end Calculator
