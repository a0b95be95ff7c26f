import Calculator.Text.Decimal
import Mathlib.Data.List.Induction

/-!
# Reading decimal texts

Digits are summed up on the circle of 64-bit integers, which gives the integer
that is written, wrapped around.  Hence the decimal text of a value is read as
that value again, whatever its sign.  The least value is read as the opposite of
its magnitude, which is itself.
-/

namespace Calculator
namespace Decimal

/-- The number that decimal digits stand for, however many they are. -/
def number (digits : List Char) : Nat :=
  digits.foldl (fun total digit => total * 10 + (digit.toNat - '0'.toNat)) 0

/-- The integer that decimal digits stand for, with an optional minus sign
before them. -/
def integer : List Char → Int
  | '-' :: digits => -number digits
  | digits => number digits

theorem number_append (before : List Char) (last : Char) :
    number (before ++ [last]) =
      number before * 10 + (last.toNat - '0'.toNat) := by
  simp only [number, List.foldl_append, List.foldl_cons, List.foldl_nil]

theorem digit_toNat {number : Nat} (below : number < 10) :
    (digit number).toNat = '0'.toNat + number := by
  have every : ∀ small : Fin 10,
      (digit small).toNat = '0'.toNat + small := by decide
  exact every ⟨number, below⟩

theorem digits_of_lt {number : Nat} (below : number < 10) :
    digits number = [digit number] := by
  rw [digits, if_pos below]

theorem digits_of_le {number : Nat} (above : 10 ≤ number) :
    digits number = digits (number / 10) ++ [digit (number % 10)] := by
  rw [digits, if_neg (Nat.not_lt.mpr above)]

theorem magnitude_append (before : List Char) (last : Char) :
    magnitude (before ++ [last]) =
      magnitude before * 10 + Int64.ofNat (last.toNat - '0'.toNat) := by
  simp only [magnitude, List.foldl_append, List.foldl_cons, List.foldl_nil]

/-- The magnitude of digits is their number, wrapped around. -/
theorem magnitude_eq_ofNat (digits : List Char) :
    magnitude digits = Int64.ofNat (number digits) := by
  induction digits using List.reverseRecOn with
  | nil => rfl
  | append_singleton before last induction =>
      rw [magnitude_append, number_append, induction, Int64.ofNat_add,
        Int64.ofNat_mul]
      rfl

/-- The value of a text is the integer that it stands for, wrapped around. -/
theorem value_eq_ofInt (text : List Char) :
    value text = Int64.ofInt (integer text) := by
  fun_cases integer text with
  | case1 digits =>
      rw [value, magnitude_eq_ofNat, Int64.ofInt_neg, Int64.ofInt_eq_ofNat]
  | case2 text unsigned =>
      rw [value.eq_2 text unsigned, magnitude_eq_ofNat, Int64.ofInt_eq_ofNat]

/-- The digits of a number stand for it, wrapped around. -/
theorem magnitude_digits (number : Nat) :
    magnitude (digits number) = Int64.ofNat number := by
  induction number using Nat.strongRecOn with
  | ind number induction =>
      by_cases below : number < 10
      · rw [digits_of_lt below]
        simp [magnitude, digit_toNat below]
      · have above : 10 ≤ number := Nat.not_lt.mp below
        have last_lt : number % 10 < 10 := Nat.mod_lt number (by decide)
        rw [digits_of_le above, magnitude_append,
          induction (number / 10) (by omega), digit_toNat last_lt,
          Nat.add_sub_cancel_left]
        have number_eq : number / 10 * 10 + number % 10 = number := by omega
        calc
          Int64.ofNat (number / 10) * 10 + Int64.ofNat (number % 10) =
              Int64.ofNat (number / 10 * 10 + number % 10) := by
            rw [Int64.ofNat_add, Int64.ofNat_mul]
            rfl
          _ = Int64.ofNat number := by rw [number_eq]

theorem isDigit_digit {number : Nat} (below : number < 10) :
    (digit number).isDigit = true := by
  have every : ∀ small : Fin 10, (digit small).isDigit = true := by decide
  exact every ⟨number, below⟩

theorem isDigit_of_mem_digits {number : Nat} {character : Char}
    (member : character ∈ digits number) : character.isDigit = true := by
  induction number using Nat.strongRecOn with
  | ind number induction =>
      by_cases below : number < 10
      · rw [digits_of_lt below, List.mem_singleton] at member
        rw [member]
        exact isDigit_digit below
      · rw [digits_of_le (Nat.not_lt.mp below), List.mem_append,
          List.mem_singleton] at member
        rcases member with earlier | rfl
        · exact induction (number / 10) (by omega) earlier
        · exact isDigit_digit (Nat.mod_lt number (by decide))

/-- Every number has digits. -/
theorem digits_ne_nil (number : Nat) : digits number ≠ [] := by
  by_cases below : number < 10
  · rw [digits_of_lt below]
    exact List.cons_ne_nil _ _
  · rw [digits_of_le (Nat.not_lt.mp below)]
    exact List.append_ne_nil_of_right_ne_nil _ (List.cons_ne_nil _ _)

theorem value_digits (number : Nat) :
    value (digits number) = Int64.ofNat number := by
  rw [← magnitude_digits]
  unfold value
  split
  · next rest digits_eq =>
    have isMinus : '-' ∈ digits number := by
      rw [digits_eq]
      exact List.mem_cons_self
    cases isDigit_of_mem_digits isMinus
  · rfl

/-- The magnitude of a negative number is its opposite. -/
theorem ofNat_natAbs {number : Int64} (negative : number < 0) :
    Int64.ofNat number.toInt.natAbs = -number := by
  have toInt_lt : number.toInt < 0 := Int64.lt_iff_toInt_lt.mp negative
  have natAbs_eq : (number.toInt.natAbs : Int) = -number.toInt := by omega
  rw [← Int64.ofInt_eq_ofNat, natAbs_eq, Int64.ofInt_neg, Int64.ofInt_toInt]

/-- A value is read back from its decimal text. -/
theorem value_text (number : Int64) : value (text number).toList = number := by
  simp only [text, String.toList_ofList]
  by_cases negative : number < 0
  · rw [if_pos negative]
    change -magnitude (digits number.toInt.natAbs) = number
    rw [magnitude_digits, ofNat_natAbs negative, Int64.neg_neg]
  · rw [if_neg negative, value_digits]
    have toInt_le : 0 ≤ number.toInt := by
      have notLess := mt Int64.lt_iff_toInt_lt.mpr negative
      change ¬number.toInt < 0 at notLess
      omega
    have natAbs_eq : (number.toInt.natAbs : Int) = number.toInt := by omega
    rw [← Int64.ofInt_eq_ofNat, natAbs_eq, Int64.ofInt_toInt]

end Decimal
end Calculator
