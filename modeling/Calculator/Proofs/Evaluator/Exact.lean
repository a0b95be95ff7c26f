import Calculator.Evaluator.Meaning
import Calculator.Proofs.Evaluator.Arithmetic
import Calculator.Proofs.Grammar.Trees

/-!
# Exact values

Sums, differences and products of values wrap around at 64 bits.  Since wrapping
around is a homomorphism of rings, it makes no difference whether it is done
after every operation or only once, after all of them have been carried out on
integers of any size.
-/

namespace Calculator

namespace Operator

/-- The operations that integers have in common with values, which are a ring.
-/
def isRing : Operator → Bool
  | .plus | .minus | .times => true
  | _ => false

/-- Wrapping around is a homomorphism. -/
theorem result?_ofInt {operator : Operator} (ring : operator.isRing = true)
    (left right : Int) :
    ∃ exact, operator.integerResult? left right = some exact ∧
      operator.result? (Int64.ofInt left) (Int64.ofInt right) =
        some (Int64.ofInt exact) := by
  cases operator with
  | plus => exact ⟨left + right, rfl, by rw [Int64.ofInt_add]; rfl⟩
  | minus => exact ⟨left - right, rfl, by rw [Int64.ofInt_sub]; rfl⟩
  | times => exact ⟨left * right, rfl, by rw [Int64.ofInt_mul]; rfl⟩
  | _ => cases ring

end Operator

namespace Expr

/-- Numbers and variables with sums, differences and products of them. -/
def isArithmetic : Expr → Bool
  | .literal .. | .var _ => true
  | .binary operator left right =>
    operator.isRing && left.isArithmetic && right.isArithmetic
  | _ => false

/-- The value of an expression on integers of any size, if numbers are as they
are written at their places and variables have their current values.  There is
none for divisions by zero and for all that is more than an operation. -/
def exactValue? (written : Span → Int) (current : String → Int) :
    Expr → Option Int
  | .literal _ place => some (written place)
  | .var name => some (current name.text)
  | .binary operator left right => do
    let leftValue ← left.exactValue? written current
    let rightValue ← right.exactValue? written current
    operator.integerResult? leftValue rightValue
  | _ => none

variable {written : Span → Int} {current : String → Int}

theorem isArithmetic_binary {operator : Operator} {left right : Expr}
    (arithmetic : (binary operator left right).isArithmetic = true) :
    operator.isRing = true ∧ left.isArithmetic = true ∧
      right.isArithmetic = true := by
  simpa only [isArithmetic, Bool.and_eq_true, and_assoc] using arithmetic

/-- Every number in the tree is the one that is written at its place, wrapped
around. -/
def WrapsLiterals (written : Span → Int) (expression : Expr) : Prop :=
  ∀ value place, .literal value place ∈ expression.nodes →
    value = Int64.ofInt (written place)

theorem WrapsLiterals.binary {operator : Operator} {left right : Expr}
    (wraps : (Expr.binary operator left right).WrapsLiterals written) :
    left.WrapsLiterals written ∧ right.WrapsLiterals written :=
  ⟨fun value place isNode => wraps value place (by simp [nodes, isNode]),
    fun value place isNode => wraps value place (by simp [nodes, isNode])⟩

end Expr

namespace Evaluator

/-- A value without any change of a variable, unless the nesting is exceeded. -/
inductive Computes (limits : Limits) (before : Environment) (value : Int64) :
    EStateM.Result RuntimeError Environment Int64 → Prop
  | value {after} (unchanged : ∀ name, after.value name = before.value name) :
      Computes limits before value (.ok value after)
  | tooDeep {after} :
      Computes limits before value
        (.error (.nestingTooDeep limits.maximumNesting) after)

variable {functions : FunctionTable} {limits : Limits}
  {written : Span → Int} {current : String → Int}

/-- An arithmetic expression computes its exact value, wrapped around. -/
theorem computes_meaning : (expression : Expr) →
    expression.isArithmetic = true → expression.WrapsLiterals written →
      ∃ exact, expression.exactValue? written current = some exact ∧
        ∀ room depth before,
          (∀ name, before.value name = Int64.ofInt (current name)) →
            Computes limits before (Int64.ofInt exact)
              (meaning functions limits room depth expression before)
  | .literal value place, _, wraps => by
      refine ⟨written place, rfl, fun room depth before _ => ?_⟩
      rw [← wraps value place (by simp [Expr.nodes])]
      cases room with
      | zero => exact .tooDeep
      | succ room => exact .value fun _ => rfl
  | .var name, _, _ => by
      refine ⟨current name.text, rfl, fun room depth before current_eq => ?_⟩
      rw [← current_eq]
      cases room with
      | zero => exact .tooDeep
      | succ room => exact .value (before.value_touch name.text)
  | .binary operator left right, arithmetic, wraps => by
      obtain ⟨ring, leftArithmetic, rightArithmetic⟩ :=
        Expr.isArithmetic_binary arithmetic
      obtain ⟨leftExact, left_eq, leftComputes⟩ :=
        computes_meaning left leftArithmetic wraps.binary.1
      obtain ⟨rightExact, right_eq, rightComputes⟩ :=
        computes_meaning right rightArithmetic wraps.binary.2
      obtain ⟨exact, exact_eq, result_eq⟩ :=
        Operator.result?_ofInt ring leftExact rightExact
      refine ⟨exact, ?_, fun room depth before current_eq => ?_⟩
      · simp only [Expr.exactValue?, left_eq, right_eq, Option.bind_eq_bind,
          Option.bind_some, exact_eq]
      · cases room with
        | zero => exact .tooDeep
        | succ room =>
            simp only [meaning, bind, EStateM.bind]
            have computesLeft := leftComputes room depth before current_eq
            generalize meaning functions limits room depth left before = result
              at computesLeft ⊢
            cases computesLeft with
            | tooDeep => exact .tooDeep
            | @value between unchanged =>
                have computesRight := rightComputes room depth between
                  fun name => (unchanged name).trans (current_eq name)
                simp only
                generalize meaning functions limits room depth right between =
                  result at computesRight ⊢
                cases computesRight with
                | tooDeep => exact .tooDeep
                | value unchangedRight =>
                    simp only [operate, result_eq]
                    exact .value fun name =>
                      (unchangedRight name).trans (unchanged name)

end Evaluator
end Calculator
