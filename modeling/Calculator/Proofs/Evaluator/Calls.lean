import Mathlib.Data.List.Forall2
import Calculator.Proofs.Evaluator.Agreement

/-!
# Calls

A function body works on an environment of its own, so how a call ends depends
on the values of its arguments, on the room for the body and on the number of
bodies that are active already, and on nothing else.  For a function that calls
itself this is one equation, from which an induction on the bodies that are left
tells what the function computes.
-/

namespace Calculator

theorem Environment.touch_of_find? {environment : Environment} {name : String}
    {value : Int64} (bound : environment.find? name = some value) :
    environment.touch name = environment := by
  have contained : environment.bindings.contains name = true :=
    Option.isSome_iff_exists.mpr ⟨value, bound⟩
  rw [touch, if_pos contained]

/-- How an action ends, whatever it leaves behind. -/
def Action.outcome {Result : Type} (action : Action Result)
    (before : Environment) : Except RuntimeError Result :=
  match action before with
  | .ok result _ => .ok result
  | .error error _ => .error error

namespace Evaluator

section Bind

variable {First Second : Type} {first : Action First}
  {next : First → Action Second} {before between : Environment}

theorem bind_of_ok {value : First}
    (first_eq : first before = .ok value between) :
    (first >>= next) before = next value between := by
  simp only [bind, EStateM.bind, first_eq]

theorem bind_of_error {error : RuntimeError}
    (first_eq : first before = .error error between) :
    (first >>= next) before = .error error between := by
  simp only [bind, EStateM.bind, first_eq]

end Bind

theorem isolated_eq_resultOf (own before : Environment)
    (action : Action Int64) :
    Action.isolated own action before =
      resultOf before (action.outcome own) := by
  simp only [Action.isolated, Action.outcome]
  cases action own <;> rfl

theorem outcome_of_resultOf {before after : Environment} {action : Action Int64}
    {outcome : Except RuntimeError Int64}
    (action_eq : action before = resultOf after outcome) :
    action.outcome before = outcome := by
  rw [Action.outcome, action_eq]
  cases outcome <;> rfl

/-- How a call of a function with some values ends, with so much room for the
body of the function while so many bodies are active already. -/
def reply (functions : FunctionTable) (limits : Limits) (room depth : Nat)
    (function : FunctionDefinition) (values : List Int64) :
    Except RuntimeError Int64 :=
  if limits.maximumCallDepth ≤ depth then
    .error (.callDepthExceeded function.name.text limits.maximumCallDepth)
  else
    (meaning functions limits room (depth + 1) function.body).outcome
      (Environment.empty.bindAll function.parameterNames values)

/-- With so much room, while so many bodies are active, an expression leads from
one environment to the other and ends like this. -/
def Leads (functions : FunctionTable) (limits : Limits) (room depth : Nat)
    (before : Environment) (expression : Expr)
    (outcome : Except RuntimeError Int64) (after : Environment) : Prop :=
  meaning functions limits room depth expression before =
    resultOf after outcome

variable {functions : FunctionTable} {limits : Limits} {room depth : Nat}
  {own before between after : Environment} {function : FunctionDefinition}
  {values : List Int64} {outcome : Except RuntimeError Int64}

theorem reply_of_le (full : limits.maximumCallDepth ≤ depth) :
    reply functions limits room depth function values =
      .error (.callDepthExceeded function.name.text limits.maximumCallDepth) :=
  if_pos full

/-- A function replies as its body ends. -/
theorem reply_of_lt (free : depth < limits.maximumCallDepth)
    (body : Leads functions limits room (depth + 1)
      (Environment.empty.bindAll function.parameterNames values) function.body
      outcome after) :
    reply functions limits room depth function values = outcome := by
  rw [reply, if_neg (Nat.not_le.mpr free)]
  exact outcome_of_resultOf body

namespace Leads

theorem literal (value : Int64) (span : Span) :
    Leads functions limits (room + 1) depth own (.literal value span)
      (.ok value) own :=
  rfl

/-- Reading a variable that is bound binds nothing. -/
theorem var {name : Name} {value : Int64}
    (bound : own.find? name.text = some value) :
    Leads functions limits (room + 1) depth own (.var name) (.ok value)
      own := by
  rw [Leads, meaning, Action.read, Environment.touch_of_find? bound,
    Environment.value, bound, Option.getD_some, resultOf]

/-- An operation whose operands have values has their result. -/
theorem operation {operator : Operator} {left right : Expr}
    {leftValue rightValue value : Int64}
    (leads : Leads functions limits room depth before left (.ok leftValue)
      between)
    (leadsRight : Leads functions limits room depth between right
      (.ok rightValue) after)
    (result_eq : operator.result? leftValue rightValue = some value) :
    Leads functions limits (room + 1) depth before (.binary operator left right)
      (.ok value) after := by
  rw [Leads, meaning, bind_of_ok leads, bind_of_ok leadsRight, operate,
    result_eq]
  rfl

/-- An operation whose operands have values but no result fails. -/
theorem divisionByZero {operator : Operator} {left right : Expr}
    {leftValue rightValue : Int64}
    (leads : Leads functions limits room depth before left (.ok leftValue)
      between)
    (leadsRight : Leads functions limits room depth between right
      (.ok rightValue) after)
    (result_eq : operator.result? leftValue rightValue = none) :
    let operation := Expr.binary operator left right
    Leads functions limits (room + 1) depth before operation
      (.error (.divisionByZero operation.infixText operation.span)) after := by
  intro operation
  rw [Leads, meaning, bind_of_ok leads, bind_of_ok leadsRight, operate,
    result_eq]
  rfl

theorem leftFails {operator : Operator} {left right : Expr}
    {error : RuntimeError}
    (leads : Leads functions limits room depth before left (.error error)
      after) :
    Leads functions limits (room + 1) depth before (.binary operator left right)
      (.error error) after := by
  rw [Leads, meaning]
  exact bind_of_error leads

/-- An operation with a value on the left that has a result with all values on
the right fails if the right operand fails. -/
theorem binaryRight {operator : Operator} {left right : Expr}
    {leftValue : Int64} {second : Except RuntimeError Int64}
    {result : Int64 → Int64}
    (leads : Leads functions limits room depth own left (.ok leftValue) own)
    (total : ∀ rightValue,
      operator.result? leftValue rightValue = some (result rightValue))
    (leadsRight : Leads functions limits room depth own right second own) :
    Leads functions limits (room + 1) depth own (.binary operator left right)
      (do return result (← second)) own := by
  cases second with
  | error error =>
      rw [Leads, meaning, bind_of_ok leads]
      exact bind_of_error leadsRight
  | ok rightValue => exact leads.operation leadsRight (total rightValue)

/-- An operation that has a result on all values fails if an operand fails. -/
theorem binary {operator : Operator} {left right : Expr}
    {first second : Except RuntimeError Int64}
    {result : Int64 → Int64 → Int64}
    (total : ∀ leftValue rightValue, operator.result? leftValue rightValue =
      some (result leftValue rightValue))
    (leads : Leads functions limits room depth own left first own)
    (leadsRight : Leads functions limits room depth own right second own) :
    Leads functions limits (room + 1) depth own (.binary operator left right)
      (do return result (← first) (← second)) own := by
  cases first with
  | error error => exact leads.leftFails
  | ok leftValue => exact leads.binaryRight (total leftValue) leadsRight

theorem store {target value : Expr} {stored : Int64}
    (leads : Leads functions limits room depth before value (.ok stored)
      between) :
    Leads functions limits (room + 1) depth before (.assign target value)
      (.ok stored) (between.assign target.infixText stored) := by
  rw [Leads, meaning]
  exact bind_of_ok leads

theorem storeFails {target value : Expr} {error : RuntimeError}
    (leads : Leads functions limits room depth before value (.error error)
      after) :
    Leads functions limits (room + 1) depth before (.assign target value)
      (.error error) after := by
  rw [Leads, meaning]
  exact bind_of_error leads

section Branches

variable {condition : Prop} [Decidable condition] {test chosen other : Expr}
  (leads : Leads functions limits room depth before test
    (.ok (Operator.truth condition)) between)
include leads

theorem onTrue (holds : condition)
    (branch : Leads functions limits room depth between chosen outcome after) :
    Leads functions limits (room + 1) depth before
      (.conditional test chosen other) outcome after := by
  rw [decide_eq_true holds] at leads
  rw [Leads, meaning, bind_of_ok leads]
  exact branch

theorem onFalse (fails : ¬condition)
    (branch : Leads functions limits room depth between chosen outcome after) :
    Leads functions limits (room + 1) depth before
      (.conditional test other chosen) outcome after := by
  rw [decide_eq_false fails] at leads
  rw [Leads, meaning, bind_of_ok leads]
  exact branch

end Branches

theorem testFails {test onTrue onFalse : Expr} {error : RuntimeError}
    (leads : Leads functions limits room depth before test (.error error)
      after) :
    Leads functions limits (room + 1) depth before
      (.conditional test onTrue onFalse) (.error error) after := by
  rw [Leads, meaning]
  exact bind_of_error leads

theorem all {arguments : List Expr}
    (given : List.Forall₂ (fun argument value =>
      Leads functions limits room depth own argument (.ok value) own)
        arguments values) :
    Action.all (meaning functions limits room depth) arguments own =
      .ok values own := by
  induction given with
  | nil => rfl
  | cons first _ induction =>
      rw [Action.all, bind_of_ok first, bind_of_ok induction]
      rfl

/-- A call ends with the reply of its function. -/
theorem call {callee : Name} {arguments : List Expr} {close : Span}
    (found : functions.find? callee.text = some function)
    (named : function.name.text = callee.text)
    (fits : values.length ≤ function.arity)
    (given : List.Forall₂ (fun argument value =>
      Leads functions limits room depth own argument (.ok value) own)
        arguments values) :
    Leads functions limits (room + 1) depth own (.call callee arguments close)
      (reply functions limits room depth function values) own := by
  rw [Leads, meaning]
  simp only [found, bind_of_ok (all given), invoke, reply, named,
    if_neg (Nat.not_lt.mpr fits)]
  split
  · rfl
  · exact isolated_eq_resultOf ..

end Leads
end Evaluator
end Calculator
