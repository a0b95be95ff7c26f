import Calculator.Proofs.Evaluator.Bounds
import Calculator.Proofs.Evaluator.Names

/-!
# Expressions without calls

Without calls no function body is ever active, and an expression is nested no
deeper than it is high.
-/

namespace Calculator
namespace Evaluator

/-- An expression without calls has an outcome, by a derivation that is no
higher than the expression. -/
theorem exists_evaluates (functions : FunctionTable) {whole : Expr}
    (callFree : whole.calleeNames = []) :
    (expression : Expr) → expression.parts ⊆ whole.parts →
      (before : Environment) →
        ∃ outcome after height, height ≤ expression.height ∧
          Evaluates functions expression before outcome after height 0
  | .literal value span, _, before => ⟨_, _, 1, Nat.le_refl _, .literal⟩
  | .var name, _, before => ⟨_, _, 1, Nat.le_refl _, .var⟩
  | .binary operator left right, inside, before => by
      obtain ⟨insideLeft, insideRight⟩ := Expr.subset_of_binary inside
      obtain ⟨leftOutcome, between, leftHeight, left_le, evaluatesLeft⟩ :=
        exists_evaluates functions callFree left insideLeft before
      simp only [Expr.height]
      cases leftOutcome with
      | error error =>
          exact ⟨_, _, _, by omega, .leftFails evaluatesLeft⟩
      | ok leftValue =>
          obtain ⟨rightOutcome, after, rightHeight, right_le,
            evaluatesRight⟩ :=
            exists_evaluates functions callFree right insideRight between
          cases rightOutcome with
          | error error =>
              exact ⟨_, _, _, by omega,
                .rightFails evaluatesLeft evaluatesRight⟩
          | ok rightValue =>
              cases result_eq : operator.integerResult? leftValue.toInt
                  rightValue.toInt with
              | none =>
                  exact ⟨_, _, _, by omega,
                    .divisionByZero evaluatesLeft evaluatesRight result_eq⟩
              | some result =>
                  exact ⟨_, _, _, by omega,
                    .operation evaluatesLeft evaluatesRight result_eq⟩
  | .assign target value, inside, before => by
      obtain ⟨outcome, after, height, height_le, evaluatesValue⟩ :=
        exists_evaluates functions callFree value
          (Expr.subset_of_assign inside) before
      simp only [Expr.height]
      cases outcome with
      | error error => exact ⟨_, _, _, by omega, .storeFails evaluatesValue⟩
      | ok stored => exact ⟨_, _, _, by omega, .store evaluatesValue⟩
  | .conditional test onTrue onFalse, inside, before => by
      obtain ⟨insideTest, insideTrue, insideFalse⟩ :=
        Expr.subset_of_conditional inside
      obtain ⟨testOutcome, between, testHeight, test_le, evaluatesTest⟩ :=
        exists_evaluates functions callFree test insideTest before
      simp only [Expr.height]
      cases testOutcome with
      | error error => exact ⟨_, _, _, by omega, .testFails evaluatesTest⟩
      | ok testValue =>
          by_cases isZero : testValue = 0
          · subst isZero
            obtain ⟨outcome, after, height, height_le, branch⟩ :=
              exists_evaluates functions callFree onFalse insideFalse between
            exact ⟨_, _, _, by omega, .onFalse evaluatesTest branch⟩
          · obtain ⟨outcome, after, height, height_le, branch⟩ :=
              exists_evaluates functions callFree onTrue insideTrue between
            exact ⟨_, _, _, by omega, .onTrue evaluatesTest isZero branch⟩
  | .call callee arguments close, inside, _ => by
      have called := Expr.mem_calleeNames_of_call inside
      rw [callFree] at called
      cases called

/-- An expression without calls ends with a value or a fault if its height is in
the limits. -/
theorem failsByFault_of_callFree {functions : FunctionTable} {limits : Limits}
    {expression : Expr} (callFree : expression.calleeNames = [])
    (height_le : expression.height ≤ limits.maximumNesting)
    (before : Environment) :
    FailsByFault
      ((fresh functions limits).evaluate expression before).outcome := by
  obtain ⟨outcome, after, height, le_height, derivation⟩ :=
    exists_evaluates functions callFree expression (List.Subset.refl _) before
  have derives : DerivesWithin functions limits expression before outcome
      after :=
    ⟨height, Nat.le_trans le_height height_le, 0, Nat.zero_le _, derivation⟩
  rw [evaluate_of_derivesWithin derives]
  exact derives.failsByFault

end Evaluator
end Calculator
