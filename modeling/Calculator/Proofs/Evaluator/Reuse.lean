import Calculator.Proofs.Evaluator.Bounds
import Calculator.Proofs.Evaluator.Moves

/-!
# Using an evaluator again

At every moment of an evaluation the counters are ahead of those it began with
by the frames and the function bodies that are active.  They never count below
zero, they keep to limits that they kept to in the beginning, and in the end,
with no frame left, they are what they were.  So an evaluator that has ended
with any value or error is as good as a fresh one.
-/

namespace Calculator
namespace Evaluator

/-- An evaluation leaves the evaluator as it was, whatever it ends with. -/
theorem evaluator_evaluate (evaluator : Evaluator) (expression : Expr)
    (before : Environment) :
    (evaluator.evaluate expression before).evaluator = evaluator := by
  rw [evaluate_eq_meaning]
  cases meaning evaluator.functions evaluator.limits
    (evaluator.limits.maximumNesting - evaluator.nesting) evaluator.depth
    expression before <;> rfl

/-- Evaluates expressions one after the other on one environment, whether they
have values or not.  `next` makes the evaluator for an expression out of the one
that the expression before it leaves behind. -/
def evaluateEach (next : Evaluator → Evaluator) (evaluator : Evaluator) :
    List Expr → Environment → List (Except RuntimeError Int64 × Environment)
  | [], _ => []
  | first :: rest, before =>
    let result := evaluator.evaluate first before
    (result.outcome, result.environment) ::
      evaluateEach next (next result.evaluator) rest result.environment

/-- One evaluator does the work of several that begin as it did. -/
theorem evaluateEach_id (evaluator : Evaluator) (expressions : List Expr)
    (before : Environment) :
    evaluator.evaluateEach id expressions before =
      evaluator.evaluateEach (fun _ => evaluator) expressions before := by
  induction expressions generalizing before with
  | nil => rfl
  | cons first rest induction =>
      simp only [evaluateEach, id_eq, evaluator_evaluate, induction]

namespace State

/-- The counters are ahead of those of an evaluator by the frames, and a counter
that is about to count down is not at zero. -/
structure CountsFrom (evaluator : Evaluator) (state : State) : Prop where
  nesting_eq : state.evaluator.nesting =
    evaluator.nesting + state.frames.length
  depth_eq : state.evaluator.depth = evaluator.depth + bodies state.frames
  nesting_pos : ∀ frame outer, state.frames = frame :: outer →
    0 < state.evaluator.nesting
  depth_pos : ∀ frame outer, state.frames = frame :: outer →
    frame.isBody = true → 0 < state.evaluator.depth

theorem Counted.countsFrom {evaluator : Evaluator} {state : State}
    (counted : state.Counted evaluator) : state.CountsFrom evaluator := by
  have evaluator_eq : state.evaluator = _ :=
    counted.trans (insideAll_eq evaluator state.frames)
  constructor
  · rw [evaluator_eq]
  · rw [evaluator_eq]
  · intro frame outer frames_eq
    rw [evaluator_eq, frames_eq, List.length_cons]
    exact Nat.lt_of_lt_of_le (Nat.succ_pos _) (Nat.le_add_left _ _)
  · intro frame outer frames_eq isBody
    have positive : 0 < bodies (frame :: outer) :=
      List.countP_pos_iff.mpr ⟨frame, List.mem_cons_self, isBody⟩
    rw [evaluator_eq, frames_eq]
    exact Nat.lt_of_lt_of_le positive (Nat.le_add_left _ _)

/-- The evaluator has the limits that the evaluation began with. -/
theorem Counted.limits_eq {evaluator : Evaluator} {state : State}
    (counted : state.Counted evaluator) :
    state.evaluator.limits = evaluator.limits := by
  have evaluator_eq : state.evaluator = _ :=
    counted.trans (insideAll_eq evaluator state.frames)
  rw [evaluator_eq]

/-- An expression that is not refused finds room for itself. -/
theorem nesting_lt_or_refused {state : State} {expression : Expr}
    (focus_eq : state.focus = .evaluate expression) :
    state.evaluator.nesting < state.evaluator.limits.maximumNesting ∨
      state.advance = .next { state with
        focus := .failure
          (.nestingTooDeep state.evaluator.limits.maximumNesting) } := by
  rcases Nat.lt_or_ge state.evaluator.nesting
    state.evaluator.limits.maximumNesting with room | full
  · exact .inl room
  · right
    simp only [advance, focus_eq, full, if_true]

end State

open State

/-- An evaluation leaves the evaluator as it was, with any value or error.  All
the way to its end the counters count up and down exactly, and within limits
that they kept to in the beginning.  So one evaluator has the same outcomes and
environments on several expressions as a fresh one for each. -/
theorem evaluate_leaves_evaluator (evaluator : Evaluator) (expression : Expr)
    (before : Environment) :
    let result := evaluator.evaluate expression before
    let Visited := (start evaluator expression before).Visits
    let limits := evaluator.limits
    result.evaluator = evaluator ∧
      (∃ last, Visited last ∧ last.advance = .done result) ∧
      (∀ state, Visited state → state.CountsFrom evaluator) ∧
      (evaluator.nesting ≤ limits.maximumNesting →
        evaluator.depth ≤ limits.maximumCallDepth →
          ∀ state, Visited state →
            state.evaluator.nesting ≤ limits.maximumNesting ∧
            state.evaluator.depth ≤ limits.maximumCallDepth ∧
            ∀ part, state.focus = .evaluate part →
              state.evaluator.nesting + 1 ≤ limits.maximumNesting ∨
                state.advance = .next { state with
                  focus := .failure
                    (.nestingTooDeep limits.maximumNesting) }) ∧
      ∀ functions limits expressions before,
        (fresh functions limits).evaluateEach id expressions before =
          (fresh functions limits).evaluateEach
            (fun _ => fresh functions limits) expressions before := by
  intro result Visited limits
  refine ⟨evaluator_evaluate evaluator expression before, exists_last _,
    fun state visits => visits.counted.countsFrom, ?_,
    fun functions limits => evaluateEach_id (fresh functions limits)⟩
  intro nesting_le depth_le state visits
  have within : state.WithinLimits :=
    visits.preserves Moves.withinLimits ⟨nesting_le, depth_le⟩
  have limits_eq : state.evaluator.limits = limits := visits.counted.limits_eq
  rw [← limits_eq]
  exact ⟨within.nesting_le, within.depth_le,
    fun part focus_eq => nesting_lt_or_refused focus_eq⟩

end Evaluator
end Calculator
