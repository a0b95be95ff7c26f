import Calculator.Proofs.Evaluator.Names
import Calculator.Proofs.Evaluator.Substitution

/-!
# What an evaluation may change

An evaluation reads and stores the variables that its expression names, one
after the other, whether it ends with a value or with an error.  So bindings are
never lost, new ones have names of the expression, and only targets of
assignments get other values.  The body of a called function has an environment
of its own: a call leaves behind what its arguments leave behind.
-/

namespace Calculator

namespace Environment

/-- An environment comes out of another one by reading and storing variables
that an expression names. -/
inductive Evolves (whole : Expr) (before : Environment) : Environment → Prop
  | refl : Evolves whole before before
  | touch {after name} (evolves : Evolves whole before after)
      (reads : name ∈ whole.variableNames) :
      Evolves whole before (after.touch name)
  | assign {after name} (evolves : Evolves whole before after)
      (stores : name ∈ whole.targetNames) (value : Int64) :
      Evolves whole before (after.assign name value)

namespace Evolves

variable {whole : Expr} {before between after : Environment} {name : String}

theorem trans (first : Evolves whole before between)
    (second : Evolves whole between after) : Evolves whole before after := by
  induction second with
  | refl => exact first
  | touch _ reads induction => exact .touch induction reads
  | assign _ stores value induction => exact .assign induction stores value

/-- Bindings are never lost. -/
theorem keeps (evolves : Evolves whole before after)
    (bound : (before.find? name).isSome) : (after.find? name).isSome := by
  induction evolves with
  | refl => exact bound
  | touch _ _ induction =>
      rw [find?_touch]
      split
      · rfl
      · exact induction
  | assign _ _ _ induction =>
      rw [find?_assign]
      split
      · rfl
      · exact induction

/-- New bindings have names of the expression. -/
theorem binds_only (evolves : Evolves whole before after)
    (bound : (after.find? name).isSome) :
    (before.find? name).isSome ∨ name ∈ whole.variableNames ∨
      name ∈ whole.targetNames := by
  induction evolves with
  | refl => exact .inl bound
  | touch _ reads induction =>
      rw [find?_touch] at bound
      split at bound
      · next same =>
        subst same
        exact .inr (.inl reads)
      · exact induction bound
  | assign _ stores _ induction =>
      rw [find?_assign] at bound
      split at bound
      · next same =>
        subst same
        exact .inr (.inr stores)
      · exact induction bound

/-- Only targets of assignments get other values. -/
theorem value_eq (evolves : Evolves whole before after)
    (unstored : name ∉ whole.targetNames) :
    after.value name = before.value name := by
  induction evolves with
  | refl => rfl
  | touch _ _ induction => rw [value_touch, induction]
  | assign _ stores _ induction =>
      rw [value_assign, if_neg, induction]
      rintro rfl
      exact unstored stores

end Evolves
end Environment

namespace Action

variable {First Second : Type} {whole : Expr}

/-- The environment that an action leaves behind. -/
def afterwards : EStateM.Result RuntimeError Environment First → Environment
  | .ok _ after => after
  | .error _ after => after

/-- The action does nothing to an environment but to read and store variables
that the expression names. -/
def Within (whole : Expr) (action : Action First) : Prop :=
  ∀ before, Environment.Evolves whole before (afterwards (action before))

theorem within_pure (result : First) :
    Within whole (pure result : Action First) :=
  fun _ => .refl

theorem within_throw (error : RuntimeError) :
    Within whole (throw error : Action First) :=
  fun _ => .refl

theorem Within.bind {action : Action First} {next : First → Action Second}
    (within : Within whole action)
    (rest : ∀ result, Within whole (next result)) :
    Within whole (action >>= next) := by
  intro before
  have evolves := within before
  simp only [Bind.bind, EStateM.bind]
  cases result_eq : action before with
  | ok result between =>
      rw [result_eq] at evolves
      exact evolves.trans (rest result between)
  | error error after =>
      rw [result_eq] at evolves
      exact evolves

theorem within_read {name : String} (reads : name ∈ whole.variableNames) :
    Within whole (read name) :=
  fun _ => .touch .refl reads

theorem within_store {name : String} (stores : name ∈ whole.targetNames)
    (value : Int64) : Within whole (store name value) :=
  fun _ => .assign .refl stores value

@[simp] theorem afterwards_isolated (own before : Environment)
    (action : Action First) :
    afterwards (isolated own action before) = before := by
  unfold isolated
  cases action own <;> rfl

theorem within_all {value : Expr → Action Int64} {expressions : List Expr}
    (within : ∀ expression ∈ expressions, Within whole (value expression)) :
    Within whole (all value expressions) := by
  induction expressions with
  | nil => exact within_pure []
  | cons first rest induction =>
      obtain ⟨withinFirst, withinRest⟩ := List.forall_mem_cons.mp within
      exact withinFirst.bind fun firstValue =>
        (induction withinRest).bind fun restValues => within_pure _

/-- An action leaves what its first step leaves, if the others change nothing.
-/
theorem afterwards_bind {action : Action First} {next : First → Action Second}
    (keeps : ∀ result between, afterwards (next result between) = between)
    (before : Environment) :
    afterwards ((action >>= next) before) = afterwards (action before) := by
  simp only [Bind.bind, EStateM.bind]
  cases action before with
  | ok result between => exact keeps result between
  | error error after => rfl

end Action

namespace Evaluator

open Calculator.Action

variable {functions : FunctionTable} {limits : Limits}

/-- Calling a function does nothing to the environment of the caller. -/
@[simp] theorem afterwards_invoke (depth : Nat) (callee : Name) (close : Span)
    (function : FunctionDefinition) (body : Action Int64) (values : List Int64)
    (before : Environment) :
    afterwards (invoke limits depth callee close function body values before) =
      before := by
  unfold invoke
  by_cases tooMany : function.arity < values.length
  · rw [if_pos tooMany]
    rfl
  · rw [if_neg tooMany]
    by_cases full : limits.maximumCallDepth ≤ depth
    · rw [if_pos full]
      rfl
    · rw [if_neg full, afterwards_isolated]

/-- What an expression means stays within the names of any expression that it is
a part of.  Nothing has to be known about the bodies of functions. -/
theorem within_meaning {whole : Expr} (room depth : Nat) (expression : Expr)
    (inside : expression.parts ⊆ whole.parts) :
    Within whole (meaning functions limits room depth expression) := by
  induction room generalizing expression with
  | zero => exact within_throw _
  | succ room induction =>
      cases expression with
      | literal value span => exact within_pure value
      | var name => exact within_read (Expr.mem_variableNames_of_var inside)
      | binary operator left right =>
          obtain ⟨insideLeft, insideRight⟩ := Expr.subset_of_binary inside
          refine (induction left insideLeft).bind fun leftValue =>
            (induction right insideRight).bind fun rightValue => ?_
          unfold operate
          split
          · exact within_pure _
          · exact within_throw _
      | assign target value =>
          exact (induction value (Expr.subset_of_assign inside)).bind
            (within_store (Expr.mem_targetNames_of_assign inside))
      | conditional test onTrue onFalse =>
          obtain ⟨insideTest, insideTrue, insideFalse⟩ :=
            Expr.subset_of_conditional inside
          refine (induction test insideTest).bind fun testValue => ?_
          split
          · exact induction onFalse insideFalse
          · exact induction onTrue insideTrue
      | call callee arguments close =>
          simp only [meaning]
          split
          · exact within_throw _
          · refine Within.bind (within_all fun argument given =>
              induction argument (Expr.subset_of_call inside argument given)) ?_
            intro values before
            rw [afterwards_invoke]
            exact .refl

variable (evaluator : Evaluator)

theorem environment_evaluate (expression : Expr) (before : Environment) :
    (evaluator.evaluate expression before).environment =
      afterwards (meaning evaluator.functions evaluator.limits
        (evaluator.limits.maximumNesting - evaluator.nesting) evaluator.depth
        expression before) := by
  rw [evaluate_eq_meaning]
  cases meaning evaluator.functions evaluator.limits
    (evaluator.limits.maximumNesting - evaluator.nesting) evaluator.depth
    expression before <;> rfl

theorem evolves_evaluate (expression : Expr) (before : Environment) :
    Environment.Evolves expression before
      (evaluator.evaluate expression before).environment := by
  rw [environment_evaluate]
  exact within_meaning _ _ expression (List.Subset.refl _) before

theorem environment_evaluateAll (expressions : List Expr)
    (before : Environment) :
    (evaluator.evaluateAll expressions before).2 =
      afterwards (Action.all (meaning evaluator.functions evaluator.limits
        (evaluator.limits.maximumNesting - evaluator.nesting) evaluator.depth)
        expressions before) := by
  induction expressions generalizing before with
  | nil => rfl
  | cons first rest induction =>
      simp only [evaluateAll, Action.all, evaluate_eq_meaning]
      simp only [bind, EStateM.bind]
      cases meaning evaluator.functions evaluator.limits
        (evaluator.limits.maximumNesting - evaluator.nesting) evaluator.depth
        first before with
      | error error after => rfl
      | ok value between =>
          simp only [induction]
          cases Action.all (meaning evaluator.functions evaluator.limits
            (evaluator.limits.maximumNesting - evaluator.nesting)
            evaluator.depth) rest between <;> rfl

/-- A call leaves behind what its arguments leave behind. -/
theorem environment_evaluate_call (callee : Name) (arguments : List Expr)
    (close : Span) (before : Environment) :
    (evaluator.evaluate (.call callee arguments close) before).environment =
      if evaluator.functions.contains callee.text then
        (evaluator.enter.evaluateAll arguments before).2
      else before := by
  rw [environment_evaluate, environment_evaluateAll]
  obtain ⟨functions, limits, depth, nesting⟩ := evaluator
  have room_eq : limits.maximumNesting - (nesting + 1) =
      limits.maximumNesting - nesting - 1 := rfl
  simp only [enter, room_eq]
  cases limits.maximumNesting - nesting with
  | zero =>
      -- No argument can be entered where the call cannot be entered.
      cases arguments <;> exact (ite_self before).symm
  | succ room =>
      simp only [meaning]
      rw [FunctionTable.contains_eq_isSome]
      cases functions.find? callee.text with
      | none => rfl
      | some function =>
          exact afterwards_bind
            (fun values between => afterwards_invoke ..) before

/-- An evaluation keeps all bindings, binds only names of its expression and
gives other values to targets of assignments only, whatever the functions are
and however it ends.  A call does nothing to the environment besides what its
arguments do. -/
theorem evaluate_frame (expression : Expr) (before : Environment) :
    let after := (evaluator.evaluate expression before).environment
    (∀ name, (before.find? name).isSome → (after.find? name).isSome) ∧
    (∀ name, (after.find? name).isSome →
      (before.find? name).isSome ∨ name ∈ expression.variableNames ∨
        name ∈ expression.targetNames) ∧
    (∀ name, name ∉ expression.targetNames →
      after.value name = before.value name) ∧
    ∀ callee arguments close, expression = .call callee arguments close →
      after =
        if evaluator.functions.contains callee.text then
          (evaluator.enter.evaluateAll arguments before).2
        else before := by
  intro after
  have evolves : Environment.Evolves expression before after :=
    evolves_evaluate evaluator expression before
  refine ⟨fun name => evolves.keeps, fun name => evolves.binds_only,
    fun name => evolves.value_eq, ?_⟩
  rintro callee arguments close rfl
  exact environment_evaluate_call evaluator callee arguments close before

end Evaluator
end Calculator
