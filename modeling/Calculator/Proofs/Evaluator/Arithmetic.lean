import Calculator.Operator

/-!
# Arithmetic on values and on integers

Every operation on values is the operation on the integers that they stand for,
wrapped around at 64 bits: quotients are rounded towards zero, comparisons yield
one or zero, and only a division by zero has no result.
-/

namespace Calculator
namespace Operator

/-- The result of an operation on integers of any size; division by zero has
none. -/
def integerResult? (operator : Operator) (left right : Int) : Option Int :=
  match operator with
  | .plus => some (left + right)
  | .minus => some (left - right)
  | .times => some (left * right)
  | .divide => if right = 0 then none else some (left.tdiv right)
  | .modulo => if right = 0 then none else some (left.tmod right)
  | .equal => some (if left = right then 1 else 0)
  | .notEqual => some (if left = right then 0 else 1)
  | .lessEqual => some (if left ≤ right then 1 else 0)
  | .less => some (if left < right then 1 else 0)
  | .greaterEqual => some (if right ≤ left then 1 else 0)
  | .greater => some (if right < left then 1 else 0)

theorem eq_zero_iff_toInt (value : Int64) : value = 0 ↔ value.toInt = 0 := by
  rw [← Int64.toInt_inj]
  rfl

theorem div_eq_ofInt (left right : Int64) :
    left / right = Int64.ofInt (left.toInt.tdiv right.toInt) := by
  apply Int64.toInt_inj.mp
  rw [Int64.toInt_div, Int64.toInt_ofInt]

theorem mod_eq_ofInt (left right : Int64) :
    left % right = Int64.ofInt (left.toInt.tmod right.toInt) := by
  rw [← Int64.toInt_mod, Int64.ofInt_toInt]

theorem truth_eq_ofInt (condition : Bool) :
    truth condition = Int64.ofInt (if condition then 1 else 0) := by
  cases condition <;> rfl

/-- An operation on values is the exact operation, wrapped around. -/
theorem result?_eq_integerResult? (operator : Operator) (left right : Int64) :
    operator.result? left right =
      (operator.integerResult? left.toInt right.toInt).map Int64.ofInt := by
  cases operator with
  | plus => simp [result?, integerResult?, Int64.ofInt_add]
  | minus => simp [result?, integerResult?, Int64.ofInt_sub]
  | times => simp [result?, integerResult?, Int64.ofInt_mul]
  | divide =>
      by_cases zero : right = 0
      · simp [result?, integerResult?, zero]
      · have nonzero : right.toInt ≠ 0 := fun same =>
          zero ((eq_zero_iff_toInt right).mpr same)
        simp [result?, integerResult?, zero, nonzero, div_eq_ofInt]
  | modulo =>
      by_cases zero : right = 0
      · simp [result?, integerResult?, zero]
      · have nonzero : right.toInt ≠ 0 := fun same =>
          zero ((eq_zero_iff_toInt right).mpr same)
        simp [result?, integerResult?, zero, nonzero, mod_eq_ofInt]
  | equal => simp [result?, integerResult?, truth_eq_ofInt, Int64.toInt_inj]
  | notEqual =>
      by_cases same : left = right <;>
        simp [result?, integerResult?, truth_eq_ofInt, Int64.toInt_inj, same]
  | lessEqual =>
      simp [result?, integerResult?, truth_eq_ofInt, Int64.le_iff_toInt_le]
  | less =>
      simp [result?, integerResult?, truth_eq_ofInt, Int64.lt_iff_toInt_lt]
  | greaterEqual =>
      simp [result?, integerResult?, truth_eq_ofInt, Int64.le_iff_toInt_le]
  | greater =>
      simp [result?, integerResult?, truth_eq_ofInt, Int64.lt_iff_toInt_lt]

end Operator
end Calculator
