import Calculator.Evaluator.Run

/-!
# The meaning of expressions

What the evaluator computes, said by recursion: an expression acts on the
environment and has a value or an error.  What was done to the environment
before an error stays done.  The recursion is on the room that is left for
nesting, since a function body is not a part of the call.
-/

namespace Calculator

/-- Something that acts on an environment and has a result or an error. -/
abbrev Action (Result : Type) := EStateM RuntimeError Environment Result

namespace Action

/-- Reads a variable. -/
def read (name : String) : Action Int64 :=
  fun environment => .ok (environment.value name) (environment.touch name)

/-- Stores a value. -/
def store (name : String) (value : Int64) : Action Int64 :=
  fun environment => .ok value (environment.assign name value)

/-- Acts on an environment of its own and leaves the given one alone. -/
def isolated {Result : Type} (own : Environment) (action : Action Result) :
    Action Result :=
  fun environment =>
    match action own with
    | .ok result _ => .ok result environment
    | .error error _ => .error error environment

/-- The values of some expressions from left to right. -/
def all (value : Expr → Action Int64) : List Expr → Action (List Int64)
  | [] => pure []
  | first :: rest => do
    let firstValue ← value first
    let restValues ← all value rest
    return firstValue :: restValues

end Action

namespace Evaluator

/-- The value of an operation on two values. -/
def operate (operator : Operator) (left right : Expr)
    (leftValue rightValue : Int64) : Action Int64 :=
  match operator.result? leftValue rightValue with
  | some result => pure result
  | none =>
    let operation := Expr.binary operator left right
    throw (.divisionByZero operation.infixText operation.span)

/-- The value of a call with the values of its arguments, where `body` is the
meaning of the function body in an environment. -/
def invoke (limits : Limits) (depth : Nat) (callee : Name) (close : Span)
    (function : FunctionDefinition) (body : Action Int64)
    (values : List Int64) : Action Int64 :=
  if function.arity < values.length then
    throw (.arityMismatch callee.text function.arity values.length
      (callee.span.till close))
  else if limits.maximumCallDepth ≤ depth then
    throw (.callDepthExceeded callee.text limits.maximumCallDepth)
  else
    Action.isolated
      (Environment.empty.bindAll function.parameterNames values) body

/-- What an expression means with room for so many nested expressions, while so
many function bodies are active. -/
def meaning (functions : FunctionTable) (limits : Limits) :
    (room depth : Nat) → Expr → Action Int64
  | 0, _, _ => throw (.nestingTooDeep limits.maximumNesting)
  | room + 1, depth, expression =>
    match expression with
    | .literal value _ => pure value
    | .var name => Action.read name.text
    | .binary operator left right => do
      let leftValue ← meaning functions limits room depth left
      let rightValue ← meaning functions limits room depth right
      operate operator left right leftValue rightValue
    | .assign target value => do
      let stored ← meaning functions limits room depth value
      Action.store target.infixText stored
    | .conditional test onTrue onFalse => do
      let testValue ← meaning functions limits room depth test
      meaning functions limits room depth
        (if testValue = 0 then onFalse else onTrue)
    | .call callee arguments close =>
      match functions.find? callee.text with
      | none => throw (.undefinedFunction callee.text (callee.span.till close))
      | some function => do
        let values ← Action.all (meaning functions limits room depth) arguments
        invoke limits depth callee close function
          (meaning functions limits room (depth + 1) function.body) values

end Evaluator
end Calculator
