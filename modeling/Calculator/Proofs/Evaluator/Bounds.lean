import Calculator.Error
import Calculator.Proofs.Evaluator.Agreement

/-!
# Limits of evaluation

What can be derived at all is derived with one outcome only, and an evaluation
comes to that outcome as soon as its limits leave room for the derivation.
Limits that are too low for every derivation end it with an error of their own.
-/

namespace Calculator

variable {functions : FunctionTable} {expression : Expr} {before : Environment}

/-- An outcome is a value or a fault. -/
def FailsByFault {Value : Type} : Except RuntimeError Value → Prop
  | .ok _ => True
  | .error error => error.IsFault

mutual

theorem Evaluates.failsByFault {before after : Environment} {expression : Expr}
    {outcome : Except RuntimeError Int64} {height bodies : Nat} :
    Evaluates functions expression before outcome after height bodies →
      FailsByFault outcome
  | .literal | .var | .operation .. | .divisionByZero .. | .store _
  | .undefinedFunction _ | .surplus .. => trivial
  | .leftFails fails | .rightFails _ fails | .storeFails fails
  | .testFails fails => fails.failsByFault
  | .onTrue _ _ branch | .onFalse _ branch => branch.failsByFault
  | .argumentFails _ fails => fails.failsByFault
  | .call _ _ _ body => body.failsByFault

theorem EvaluatesAll.failsByFault {before after : Environment}
    {expressions : List Expr} {outcome : Except RuntimeError (List Int64)}
    {height bodies : Nat} :
    EvaluatesAll functions expressions before outcome after height bodies →
      FailsByFault outcome
  | .nil | .cons .. => trivial
  | .firstFails fails => fails.failsByFault
  | .restFails _ fails => fails.failsByFault

end

/-- An expression has at most one outcome and leaves one environment. -/
theorem Evaluates.unique {first second : Except RuntimeError Int64}
    {firstAfter secondAfter : Environment}
    {height bodies otherHeight otherBodies : Nat}
    (derivation : Evaluates functions expression before first firstAfter height
      bodies)
    (other : Evaluates functions expression before second secondAfter
      otherHeight otherBodies) :
    first = second ∧ firstAfter = secondAfter := by
  let limits : Limits := ⟨max bodies otherBodies, max height otherHeight⟩
  have meaning_eq : Evaluator.meaning functions limits limits.maximumNesting 0
      expression before = Evaluator.resultOf firstAfter first :=
    Evaluator.meaning_of_evaluates _ _ derivation (Nat.le_max_left ..)
      (by simp only [Nat.zero_add, limits]; omega)
  have other_eq : Evaluator.meaning functions limits limits.maximumNesting 0
      expression before = Evaluator.resultOf secondAfter second :=
    Evaluator.meaning_of_evaluates _ _ other (Nat.le_max_right ..)
      (by simp only [Nat.zero_add, limits]; omega)
  exact Evaluator.resultOf_inj.mp (meaning_eq.symm.trans other_eq)

/-- The lists have at most one outcome as well. -/
theorem EvaluatesAll.unique {expressions : List Expr}
    {first second : Except RuntimeError (List Int64)}
    {firstAfter secondAfter : Environment}
    {height bodies otherHeight otherBodies : Nat}
    (derivation : EvaluatesAll functions expressions before first firstAfter
      height bodies)
    (other : EvaluatesAll functions expressions before second secondAfter
      otherHeight otherBodies) :
    first = second ∧ firstAfter = secondAfter := by
  let limits : Limits := ⟨max bodies otherBodies, max height otherHeight⟩
  have all_eq : Action.all (Evaluator.meaning functions limits
      limits.maximumNesting 0) expressions before =
        Evaluator.resultOf firstAfter first :=
    Evaluator.all_of_evaluatesAll _ _ derivation (Nat.le_max_left ..)
      (by simp only [Nat.zero_add, limits]; omega)
  have other_eq : Action.all (Evaluator.meaning functions limits
      limits.maximumNesting 0) expressions before =
        Evaluator.resultOf secondAfter second :=
    Evaluator.all_of_evaluatesAll _ _ other (Nat.le_max_right ..)
      (by simp only [Nat.zero_add, limits]; omega)
  exact Evaluator.resultOf_inj.mp (all_eq.symm.trans other_eq)

/-- An outcome has a derivation that fits the limits. -/
def DerivesWithin (functions : FunctionTable) (limits : Limits)
    (expression : Expr) (before : Environment)
    (outcome : Except RuntimeError Int64) (after : Environment) : Prop :=
  ∃ height ≤ limits.maximumNesting, ∃ bodies ≤ limits.maximumCallDepth,
    Evaluates functions expression before outcome after height bodies

theorem DerivesWithin.raise {limits higher : Limits}
    {outcome : Except RuntimeError Int64} {after : Environment}
    (bodies_le : limits.maximumCallDepth ≤ higher.maximumCallDepth)
    (height_le : limits.maximumNesting ≤ higher.maximumNesting)
    (derives : DerivesWithin functions limits expression before outcome after) :
    DerivesWithin functions higher expression before outcome after := by
  obtain ⟨height, inNesting, bodies, inDepth, derivation⟩ := derives
  exact ⟨height, Nat.le_trans inNesting height_le, bodies,
    Nat.le_trans inDepth bodies_le, derivation⟩

theorem DerivesWithin.failsByFault {limits : Limits}
    {outcome : Except RuntimeError Int64} {after : Environment}
    (derives : DerivesWithin functions limits expression before outcome after) :
    FailsByFault outcome := by
  obtain ⟨_, _, _, _, derivation⟩ := derives
  exact derivation.failsByFault

theorem RuntimeError.IsFault.not_isLimitOf {limits : Limits}
    {error : RuntimeError} (fault : error.IsFault) :
    ¬error.IsLimitOf limits := by
  intro reached
  cases error <;> first | exact fault | exact reached

theorem RuntimeError.kind_of_isLimitOf {limits : Limits} {error : RuntimeError}
    (reached : error.IsLimitOf limits) : error.kind = .callDepthExceeded := by
  cases error <;> first | rfl | cases reached

namespace Evaluator

/-- An evaluator that has entered nothing. -/
def fresh (functions : FunctionTable) (limits : Limits) : Evaluator :=
  { functions, limits }

variable {limits : Limits}

/-- The end of an evaluation by a fresh evaluator. -/
theorem evaluate_fresh (expression : Expr) (before : Environment) :
    (fresh functions limits).evaluate expression before =
      match meaning functions limits limits.maximumNesting 0 expression before
        with
      | .ok value after => ⟨.ok value, after, fresh functions limits⟩
      | .error error after => ⟨.error error, after, fresh functions limits⟩ :=
  evaluate_eq_meaning (fresh functions limits) expression before

theorem evaluate_of_derivesWithin {outcome : Except RuntimeError Int64}
    {after : Environment}
    (derives : DerivesWithin functions limits expression before outcome after) :
    (fresh functions limits).evaluate expression before =
      ⟨outcome, after, fresh functions limits⟩ := by
  obtain ⟨height, inNesting, bodies, inDepth, derivation⟩ := derives
  have meaning_eq : meaning functions limits limits.maximumNesting 0 expression
      before = resultOf after outcome :=
    meaning_of_evaluates _ _ derivation inNesting (by omega)
  rw [evaluate_fresh, meaning_eq]
  cases outcome <;> rfl

/-- A fresh evaluator ends with a limit error or with what is derived within the
limits. -/
theorem evaluate_cases (functions : FunctionTable) (limits : Limits)
    (expression : Expr) (before : Environment) :
    (∃ error,
      ((fresh functions limits).evaluate expression before).outcome =
          .error error ∧
        error.IsLimitOf limits) ∨
      DerivesWithin functions limits expression before
        ((fresh functions limits).evaluate expression before).outcome
        ((fresh functions limits).evaluate expression before).environment := by
  have accounted : Accounted limits limits.maximumNesting 0
      (Evaluates functions expression before)
      (meaning functions limits limits.maximumNesting 0 expression before) :=
    accounted_meaning _ (Nat.zero_le _) expression before
  rw [evaluate_fresh]
  generalize meaning functions limits limits.maximumNesting 0 expression
    before = result at accounted ⊢
  cases accounted with
  | @limit error _ reached => exact .inl ⟨error, rfl, reached⟩
  | value derivation height_le bodies_le =>
      exact .inr ⟨_, height_le, _, by omega, derivation⟩
  | error derivation height_le bodies_le =>
      exact .inr ⟨_, height_le, _, by omega, derivation⟩

end Evaluator

end Calculator
