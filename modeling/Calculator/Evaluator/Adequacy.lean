import Calculator.Evaluator.Meaning

/-!
# Evaluation agrees with the meaning

A run on an expression, below any frames, goes on as if the expression had been
replaced by its value or its error.  This is shown by induction on the room for
nesting: a part of an expression has one level less, and the frame above it
takes over where the meaning binds the value of the part.
-/

namespace Calculator
namespace Evaluator

/-- A run is a step and the run of what it leads to. -/
theorem run_eq (state : State) :
    run state =
      match state.advance with
      | .done result => result
      | .next next => run next := by
  rw [run]
  split <;> simp_all

/-- The state in which a part with the given result hands it on. -/
def settle (evaluator : Evaluator) (frames : List Frame) :
    EStateM.Result RuntimeError Environment Int64 → State
  | .ok value environment => ⟨evaluator, environment, frames, .value value⟩
  | .error error environment =>
    ⟨evaluator, environment, frames, .failure error⟩

@[simp] theorem settle_ok (evaluator : Evaluator) (frames : List Frame)
    (value : Int64) (environment : Environment) :
    settle evaluator frames (.ok value environment) =
      ⟨evaluator, environment, frames, .value value⟩ :=
  rfl

@[simp] theorem settle_error (evaluator : Evaluator) (frames : List Frame)
    (error : RuntimeError) (environment : Environment) :
    settle evaluator frames (.error error environment) =
      ⟨evaluator, environment, frames, .failure error⟩ :=
  rfl

theorem run_value (evaluator : Evaluator) (environment : Environment)
    (frame : Frame) (outer : List Frame) (value : Int64) :
    run ⟨evaluator, environment, frame :: outer, .value value⟩ =
      run (State.resume ⟨evaluator, environment, frame :: outer, .value value⟩
        frame outer value) := by
  rw [run_eq]
  rfl

theorem run_failure (evaluator : Evaluator) (environment : Environment)
    (frame : Frame) (outer : List Frame) (error : RuntimeError) :
    run ⟨evaluator, environment, frame :: outer, .failure error⟩ =
      run (State.abandon
        ⟨evaluator, environment, frame :: outer, .failure error⟩ frame outer) := by
  rw [run_eq]
  rfl

theorem enter_mk (functions : FunctionTable) (limits : Limits)
    (depth nesting : Nat) :
    enter ⟨functions, limits, depth, nesting⟩ =
      ⟨functions, limits, depth, nesting + 1⟩ :=
  rfl

/-- An expression is entered if the nesting allows it. -/
theorem run_enter (evaluator : Evaluator) (environment : Environment)
    (frames : List Frame) (expression : Expr)
    (inLimit : evaluator.nesting < evaluator.limits.maximumNesting) :
    run ⟨evaluator, environment, frames, .evaluate expression⟩ =
      run (State.evaluate
        ⟨evaluator, environment, frames, .evaluate expression⟩ expression) := by
  rw [run_eq]
  simp only [State.advance, Nat.not_le.mpr inLimit, if_false]

/-- A call that was entered ends with what invoking the function means. -/
theorem run_call (evaluator : Evaluator) (environment : Environment)
    (frames outer : List Frame) (focus : Focus) (callee : Name) (close : Span)
    (function : FunctionDefinition) (values : List Int64)
    (body : Action Int64)
    (body_eq : ∀ environment frames,
      run ⟨evaluator.enter.enterBody, environment, frames,
          .evaluate function.body⟩ =
        run (settle evaluator.enter.enterBody frames (body environment))) :
    run (State.call ⟨evaluator.enter, environment, frames, focus⟩ outer callee
        close function values) =
      run (settle evaluator outer
        (invoke evaluator.limits evaluator.depth callee close function body values
          environment)) := by
  unfold State.call invoke
  by_cases surplus : function.arity < values.length
  · simp only [surplus, if_true]
    rfl
  · simp only [surplus, if_false]
    by_cases tooDeep : evaluator.limits.maximumCallDepth ≤ evaluator.depth
    · have tooDeep' : evaluator.enter.limits.maximumCallDepth ≤
        evaluator.enter.depth := tooDeep
      simp only [tooDeep, tooDeep', if_true]
      rfl
    · have tooDeep' : ¬evaluator.enter.limits.maximumCallDepth ≤
        evaluator.enter.depth := tooDeep
      simp only [tooDeep, tooDeep', if_false, body_eq, Action.isolated]
      cases body (Environment.empty.bindAll function.parameterNames values) with
      | ok value own =>
        simp only [settle_ok, run_value]
        rfl
      | error error own =>
        simp only [settle_error, run_failure]
        rfl

/-- The arguments of a call are evaluated in order, and then the call is made.
-/
theorem run_arguments (evaluator : Evaluator) (outer : List Frame)
    (callee : Name) (close : Span) (function : FunctionDefinition)
    (part : Expr → Action Int64)
    (part_eq : ∀ expression environment frames,
      run ⟨evaluator.enter, environment, frames, .evaluate expression⟩ =
        run (settle evaluator.enter frames (part expression environment)))
    (body : Action Int64)
    (body_eq : ∀ environment frames,
      run ⟨evaluator.enter.enterBody, environment, frames,
          .evaluate function.body⟩ =
        run (settle evaluator.enter.enterBody frames (body environment)))
    (environment : Environment) (before : List Int64) (first : Expr)
    (rest : List Expr) :
    run ⟨evaluator.enter, environment,
        .argument callee close function before rest :: outer,
        .evaluate first⟩ =
      run (settle evaluator outer
        ((Action.all part (first :: rest) >>= fun values =>
          invoke evaluator.limits evaluator.depth callee close function body
            (before ++ values)) environment)) := by
  induction rest generalizing environment before first with
  | nil =>
    rw [part_eq]
    simp only [Action.all, bind, EStateM.bind, pure, EStateM.pure]
    cases part first environment with
    | ok value later =>
      simp only [settle_ok, run_value, State.resume]
      rw [run_call evaluator later _ outer _ callee close function _ body
        body_eq]
    | error error later =>
      simp only [settle_error, run_failure]
      rfl
  | cons next rest induction =>
    rw [part_eq]
    rw [Action.all]
    simp only [bind, EStateM.bind, pure, EStateM.pure]
    cases part first environment with
    | ok value later =>
      simp only [settle_ok, run_value, State.resume]
      rw [induction]
      simp only [bind, EStateM.bind]
      cases Action.all part (next :: rest) later with
      | ok values last =>
        simp only [List.append_assoc, List.singleton_append]
      | error error last => rfl
    | error error later =>
      simp only [settle_error, run_failure]
      rfl

/-- A run on an expression goes on with what the expression means. -/
theorem run_evaluate (functions : FunctionTable) (limits : Limits)
    (room depth nesting : Nat)
    (room_eq : limits.maximumNesting - nesting = room)
    (expression : Expr) (environment : Environment) (frames : List Frame) :
    run ⟨⟨functions, limits, depth, nesting⟩, environment, frames,
        .evaluate expression⟩ =
      run (settle ⟨functions, limits, depth, nesting⟩ frames
        (meaning functions limits room depth expression environment)) := by
  induction room generalizing depth nesting expression environment frames with
  | zero =>
    rw [run_eq]
    have outOfLimit : limits.maximumNesting ≤ nesting := by omega
    simp only [State.advance, outOfLimit, if_true]
    rfl
  | succ room induction =>
    have inLimit : nesting < limits.maximumNesting := by omega
    have part_eq := fun depth =>
      induction depth (nesting + 1) (by omega)
    rw [run_enter _ _ _ _ inLimit]
    unfold meaning
    cases expression with
    | literal value span => rfl
    | var name => rfl
    | binary operator left right =>
      change run ⟨_, _, .leftOperand operator left right :: frames,
        .evaluate left⟩ = _
      rw [enter_mk, part_eq]
      simp only [bind, EStateM.bind]
      cases meaning functions limits room depth left environment with
      | error error later =>
        simp only [settle_error, run_failure]
        rfl
      | ok leftValue later =>
        simp only [settle_ok, run_value, State.resume]
        rw [part_eq]
        cases meaning functions limits room depth right later with
        | error error last =>
          simp only [settle_error, run_failure]
          rfl
        | ok rightValue last =>
          simp only [settle_ok, run_value, State.resume, operate]
          cases operator.result? leftValue rightValue <;> rfl
    | assign target value =>
      change run ⟨_, _, .store target :: frames, .evaluate value⟩ = _
      rw [enter_mk, part_eq]
      simp only [bind, EStateM.bind]
      cases meaning functions limits room depth value environment with
      | error error later =>
        simp only [settle_error, run_failure]
        rfl
      | ok stored later =>
        simp only [settle_ok, run_value]
        rfl
    | conditional test onTrue onFalse =>
      change run ⟨_, _, .test onTrue onFalse :: frames, .evaluate test⟩ = _
      rw [enter_mk, part_eq]
      simp only [bind, EStateM.bind]
      cases meaning functions limits room depth test environment with
      | error error later =>
        simp only [settle_error, run_failure]
        rfl
      | ok testValue later =>
        simp only [settle_ok, run_value, State.resume]
        rw [part_eq]
        cases meaning functions limits room depth
            (if testValue = 0 then onFalse else onTrue) later with
        | error error last =>
          simp only [settle_error, run_failure]
          rfl
        | ok value last =>
          simp only [settle_ok, run_value]
          rfl
    | call callee arguments close =>
      simp only [State.evaluate]
      cases functions.find? callee.text with
      | none => rfl
      | some function =>
        have body_eq := fun environment frames =>
          part_eq (depth + 1) function.body environment frames
        cases arguments with
        | nil =>
          simp only
          rw [run_call ⟨functions, limits, depth, nesting⟩ environment _ frames _
            callee close function [] _ body_eq]
          rfl
        | cons first rest =>
          simp only
          rw [run_arguments ⟨functions, limits, depth, nesting⟩ frames callee
            close function _ (part_eq depth) _ body_eq]
          simp only [List.nil_append]

/-- Evaluation ends with what the expression means and leaves the evaluator as
it was, whether there is a value or an error. -/
theorem evaluate_eq_meaning (evaluator : Evaluator) (expression : Expr)
    (environment : Environment) :
    evaluator.evaluate expression environment =
      match meaning evaluator.functions evaluator.limits
          (evaluator.limits.maximumNesting - evaluator.nesting) evaluator.depth
          expression environment with
      | .ok value later => ⟨.ok value, later, evaluator⟩
      | .error error later => ⟨.error error, later, evaluator⟩ := by
  unfold evaluate
  rw [run_evaluate evaluator.functions evaluator.limits _ evaluator.depth
    evaluator.nesting rfl]
  cases meaning evaluator.functions evaluator.limits
      (evaluator.limits.maximumNesting - evaluator.nesting) evaluator.depth
      expression environment with
  | ok value later =>
    rw [settle_ok, run_eq]
    rfl
  | error error later =>
    rw [settle_error, run_eq]
    rfl

end Evaluator
end Calculator
