import Calculator.Evaluator.Work

/-!
# Evaluation

Evaluation advances from state to state until it is done, which it is because
every step brings down the work that is left.
-/

namespace Calculator
namespace Evaluator

/-- The end of an evaluation that has got as far as the given state. -/
def run (state : State) : Result :=
  match advanced : state.advance with
  | .done result => result
  | .next next =>
    have _ := State.work_lt_of_advance advanced
    run next
termination_by state.work

/-- Evaluates an expression in an environment. -/
def evaluate (evaluator : Evaluator) (expression : Expr)
    (environment : Environment) : Result :=
  run
    { evaluator
      environment
      frames := []
      focus := .evaluate expression }

end Evaluator
end Calculator
