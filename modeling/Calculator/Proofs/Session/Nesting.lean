import Calculator.Proofs.Evaluator.CallFree
import Calculator.Proofs.Evaluator.Nesting
import Calculator.Proofs.Session.WellFormed

/-!
# The nesting of requests

Trees are not too tall when they are read, and the nesting of an evaluation is
bounded by heights.  The limits on nesting and on calls therefore fit together:
with enough nesting for all the bodies that may be active, it never gets too
deep.
-/

namespace Calculator
namespace Session

open Evaluator (State fresh)

variable {session : Session} {text : String} {expression : Expr}

/-- The states that a session goes through to evaluate an expression. -/
def Visits (session : Session) (expression : Expr) (state : State) : Prop :=
  (State.start (fresh session.functions session.limits) expression
    session.environment).Visits state

/-- Wherever a well-formed session evaluates an expression, the nesting is below
the greatest height for each body that is active and for the request. -/
theorem WellFormed.nesting_lt (wellFormed : session.WellFormed)
    (read_eq : session.read text = .ok (.expression expression)) {state : State}
    (visits : session.Visits expression state) {part : Expr}
    (focus_eq : state.focus = .evaluate part) :
    state.evaluator.nesting <
      Grammar.maximumHeight * (state.evaluator.depth + 1) := by
  have readWell : expression.WellFormed := wellFormed_of_read read_eq
  apply State.Visits.nesting_lt _ readWell.height_le visits focus_eq
  intro name function found
  exact (wellFormed.functions name function found).2.body.height_le

/-- The nesting gets too deep only where its limit is below the greatest height
for each body that is active and for the request. -/
theorem WellFormed.limit_lt (wellFormed : session.WellFormed)
    (read_eq : session.read text = .ok (.expression expression)) {state : State}
    (visits : session.Visits expression state) (full : state.Full) :
    session.limits.maximumNesting <
      Grammar.maximumHeight * (state.evaluator.depth + 1) := by
  obtain ⟨⟨part, focus_eq⟩, nesting_le⟩ := full
  rw [State.counters_of_visits visits] at nesting_le
  have nesting_lt := wellFormed.nesting_lt read_eq visits focus_eq
  rw [State.counters_of_visits visits] at nesting_lt ⊢
  exact Nat.lt_of_le_of_lt nesting_le nesting_lt

/-- If the nesting gets too deep, the evaluation has come to a full state. -/
theorem exists_full_of_evaluate {limit : Nat} {after : Session}
    (answer : session.evaluate text =
      (.error (.ofRuntime (.nestingTooDeep limit)), after)) :
    ∃ expression state, session.read text = .ok (.expression expression) ∧
      session.Visits expression state ∧ state.Full := by
  rcases outcome_of_evaluate_eq_error answer with
    unavailable | ⟨expression, read_eq, outcome_eq⟩
  · cases unavailable
  · obtain ⟨state, visits, full⟩ :=
      State.exists_full_of_nestingTooDeep outcome_eq
    exact ⟨expression, state, read_eq, visits, full⟩

/-- An error of the limits comes from an expression with a call, if expressions
are not too tall for the nesting. -/
theorem exists_call_of_kind
    (enough : Grammar.maximumHeight ≤ session.limits.maximumNesting)
    {error : Error} {after : Session}
    (answer : session.evaluate text = (.error error, after))
    (kind_eq : error.kind = .callDepthExceeded) :
    ∃ expression, session.read text = .ok (.expression expression) ∧
      expression.calleeNames ≠ [] := by
  cases error with
  | ofSyntax error =>
      rw [Error.kind, SyntaxError.kind] at kind_eq
      split at kind_eq <;> cases kind_eq
  | ofRuntime error =>
      rw [Error.kind] at kind_eq
      rcases outcome_of_evaluate_eq_error answer with
        rfl | ⟨expression, read_eq, outcome_eq⟩
      · cases kind_eq
      · refine ⟨expression, read_eq, fun callFree => ?_⟩
        have readWell : expression.WellFormed := wellFormed_of_read read_eq
        have height_le := Nat.le_trans readWell.height_le enough
        have fault := @Evaluator.failsByFault_of_callFree session.functions _ _
          callFree height_le session.environment
        rw [outcome_eq] at fault
        cases error with
        | callDepthExceeded | nestingTooDeep | stackUnavailable => cases fault
        | _ => cases kind_eq

/-- Whatever was asked of a session that began with nothing, the nesting of the
next request stays below the greatest height for each body that is active and
for the request, and gets too deep only where its limit is lower than that.  So
it never does if the limit suffices for all bodies that may be active, and if it
suffices for a request alone, then requests without calls have no error of the
limits. -/
theorem nesting_of_obey (limits : Limits) (grants : Nat → Bool)
    (commands : List Command) (text : String) :
    let session := obey { limits, grants } commands
    (∀ expression state part,
      session.read text = .ok (.expression expression) →
        session.Visits expression state → state.focus = .evaluate part →
          state.evaluator.nesting <
            Grammar.maximumHeight * (state.evaluator.depth + 1)) ∧
    (∀ limit after,
      session.evaluate text =
          (.error (.ofRuntime (.nestingTooDeep limit)), after) →
        ∃ expression state,
          session.read text = .ok (.expression expression) ∧
            session.Visits expression state ∧ state.Full ∧
            limits.maximumNesting <
              Grammar.maximumHeight * (state.evaluator.depth + 1)) ∧
    (Grammar.maximumHeight ≤ limits.maximumNesting →
      ∀ error after, session.evaluate text = (.error error, after) →
        error.kind = .callDepthExceeded →
          ∃ expression, session.read text = .ok (.expression expression) ∧
            expression.calleeNames ≠ []) ∧
    (Grammar.maximumHeight * (limits.maximumCallDepth + 1) ≤
        limits.maximumNesting →
      ∀ limit after,
        session.evaluate text ≠
          (.error (.ofRuntime (.nestingTooDeep limit)), after)) := by
  intro session
  have wellFormed : session.WellFormed :=
    wellFormed_obey limits grants commands
  have limits_eq : session.limits = limits :=
    limits_obey limits grants commands
  have low : ∀ limit after,
      session.evaluate text =
          (.error (.ofRuntime (.nestingTooDeep limit)), after) →
        ∃ expression state,
          session.read text = .ok (.expression expression) ∧
            session.Visits expression state ∧ state.Full ∧
            limits.maximumNesting <
              Grammar.maximumHeight * (state.evaluator.depth + 1) := by
    intro limit after answer
    obtain ⟨expression, state, read_eq, visits, full⟩ :=
      exists_full_of_evaluate answer
    have limit_lt := wellFormed.limit_lt read_eq visits full
    rw [limits_eq] at limit_lt
    exact ⟨expression, state, read_eq, visits, full, limit_lt⟩
  refine ⟨?_, low, ?_, ?_⟩
  · intro expression state part read_eq visits focus_eq
    exact wellFormed.nesting_lt read_eq visits focus_eq
  · intro enough error after answer kind_eq
    rw [← limits_eq] at enough
    exact exists_call_of_kind enough answer kind_eq
  · intro enough limit after answer
    obtain ⟨expression, state, _, visits, _, limit_lt⟩ := low limit after answer
    have depth_le := State.depth_le_of_visits visits
    rw [limits_eq] at depth_le
    have product_le : Grammar.maximumHeight * (state.evaluator.depth + 1) ≤
        Grammar.maximumHeight * (limits.maximumCallDepth + 1) :=
      Nat.mul_le_mul_left _ (Nat.succ_le_succ depth_le)
    omega

end Session
end Calculator
