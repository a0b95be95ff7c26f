import Calculator.Environment
import Calculator.Expr.Text
import Calculator.FunctionTable
import Calculator.Limits
import Calculator.RuntimeError

/-!
# The evaluator

Expressions may be nested far deeper than a native call stack allows, so the
evaluator keeps its own: a list of frames, each of which is an expression that
was entered and waits for the value of one of its parts.  `State.advance` makes
one step.

An evaluator counts the function bodies that are active and the expressions
that are nested.  Entering an expression or a body counts up and leaving it
counts down; a failure leaves everything that was entered.
-/

namespace Calculator

/-- The functions and limits of an evaluation together with its two counters.
-/
structure Evaluator where
  functions : FunctionTable
  limits : Limits
  depth : Nat := 0
  nesting : Nat := 0

namespace Evaluator

/-- The evaluator inside one more expression. -/
def enter (evaluator : Evaluator) : Evaluator :=
  { evaluator with nesting := evaluator.nesting + 1 }

/-- The evaluator outside the expression that was entered last. -/
def leave (evaluator : Evaluator) : Evaluator :=
  { evaluator with nesting := evaluator.nesting - 1 }

/-- The evaluator inside one more function body. -/
def enterBody (evaluator : Evaluator) : Evaluator :=
  { evaluator with depth := evaluator.depth + 1 }

/-- The evaluator outside the function body that was entered last. -/
def leaveBody (evaluator : Evaluator) : Evaluator :=
  { evaluator with depth := evaluator.depth - 1 }

/-- An expression that was entered and waits for the value of a part. -/
inductive Frame
  /-- An operation waits for its left operand. -/
  | leftOperand (operator : Operator) (left right : Expr)
  /-- An operation with the value of its left operand waits for the right one.
  -/
  | rightOperand (operator : Operator) (left right : Expr) (value : Int64)
  /-- An assignment waits for the value to store. -/
  | store (target : Expr)
  /-- A conditional waits for its test. -/
  | test (onTrue onFalse : Expr)
  /-- A conditional waits for the chosen branch. -/
  | branch
  /-- A call with some of its values waits for the next argument. -/
  | argument (callee : Name) (close : Span) (function : FunctionDefinition)
    (before : List Int64) (after : List Expr)
  /-- A call waits for the body of its function and keeps the environment of
  the caller. -/
  | body (caller : Environment)

/-- What is to be done next: evaluate an expression, hand a value to the
innermost frame, or give up. -/
inductive Focus
  | evaluate (expression : Expr)
  | value (value : Int64)
  | failure (error : RuntimeError)

/-- A moment of an evaluation.  The innermost frame comes first. -/
structure State where
  evaluator : Evaluator
  environment : Environment
  frames : List Frame
  focus : Focus

/-- The end of an evaluation: its value or its error, and the environment and
the evaluator that it leaves behind. -/
structure Result where
  outcome : Except RuntimeError Int64
  environment : Environment
  evaluator : Evaluator

/-- One step of an evaluation leads on or ends it. -/
inductive Step
  | next (state : State)
  | done (result : Result)

namespace State

/-- Starts on the body of a function inside a call that was entered, or leaves
the call because it cannot be made. -/
def call (state : State) (outer : List Frame) (callee : Name) (close : Span)
    (function : FunctionDefinition) (values : List Int64) : State :=
  let evaluator := state.evaluator
  let refuse (error : RuntimeError) : State :=
    { state with
      evaluator := evaluator.leave
      frames := outer
      focus := .failure error }
  if function.arity < values.length then
    refuse (.arityMismatch callee.text function.arity values.length
      (callee.span.till close))
  else if evaluator.limits.maximumCallDepth ≤ evaluator.depth then
    refuse (.callDepthExceeded callee.text evaluator.limits.maximumCallDepth)
  else
    { evaluator := evaluator.enterBody
      environment := Environment.empty.bindAll function.parameterNames values
      frames := .body state.environment :: outer
      focus := .evaluate function.body }

/-- Enters an expression. -/
def evaluate (state : State) (expression : Expr) : State :=
  let inside := { state with evaluator := state.evaluator.enter }
  let waitFor (frame : Frame) (part : Expr) : State :=
    { inside with frames := frame :: state.frames, focus := .evaluate part }
  match expression with
  | .literal value _ => { state with focus := .value value }
  | .var name =>
    { state with
      environment := state.environment.touch name.text
      focus := .value (state.environment.value name.text) }
  | .binary operator left right =>
    waitFor (.leftOperand operator left right) left
  | .assign target value => waitFor (.store target) value
  | .conditional test onTrue onFalse => waitFor (.test onTrue onFalse) test
  | .call callee arguments close =>
    match state.evaluator.functions.find? callee.text with
    | none =>
      { state with
        focus := .failure
          (.undefinedFunction callee.text (callee.span.till close)) }
    | some function =>
      match arguments with
      | [] => inside.call state.frames callee close function []
      | first :: rest => waitFor (.argument callee close function [] rest) first

/-- Hands a value to the innermost frame. -/
def resume (state : State) (frame : Frame) (outer : List Frame)
    (value : Int64) : State :=
  let outside :=
    { state with evaluator := state.evaluator.leave, frames := outer }
  let waitFor (frame : Frame) (part : Expr) : State :=
    { state with frames := frame :: outer, focus := .evaluate part }
  match frame with
  | .leftOperand operator left right =>
    waitFor (.rightOperand operator left right value) right
  | .rightOperand operator left right leftValue =>
    match operator.result? leftValue value with
    | some result => { outside with focus := .value result }
    | none =>
      let operation := Expr.binary operator left right
      { outside with
        focus := .failure (.divisionByZero operation.infixText operation.span) }
  | .store target =>
    { outside with
      environment := state.environment.assign target.infixText value
      focus := .value value }
  | .test onTrue onFalse =>
    waitFor .branch (if value = 0 then onFalse else onTrue)
  | .branch => { outside with focus := .value value }
  | .argument callee close function before after =>
    let values := before ++ [value]
    match after with
    | [] => state.call outer callee close function values
    | next :: rest =>
      waitFor (.argument callee close function values rest) next
  | .body caller =>
    { outside with
      evaluator := state.evaluator.leaveBody.leave
      environment := caller
      focus := .value value }

/-- Leaves the innermost frame because of a failure. -/
def abandon (state : State) (frame : Frame) (outer : List Frame) : State :=
  match frame with
  | .body caller =>
    { state with
      evaluator := state.evaluator.leaveBody.leave
      environment := caller
      frames := outer }
  | _ => { state with evaluator := state.evaluator.leave, frames := outer }

/-- One step of an evaluation. -/
def advance (state : State) : Step :=
  match state.focus with
  | .evaluate expression =>
    if state.evaluator.limits.maximumNesting ≤ state.evaluator.nesting then
      .next { state with
        focus := .failure
          (.nestingTooDeep state.evaluator.limits.maximumNesting) }
    else .next (state.evaluate expression)
  | .value value =>
    match state.frames with
    | [] => .done ⟨.ok value, state.environment, state.evaluator⟩
    | frame :: outer => .next (state.resume frame outer value)
  | .failure error =>
    match state.frames with
    | [] => .done ⟨.error error, state.environment, state.evaluator⟩
    | frame :: outer => .next (state.abandon frame outer)

end State
end Evaluator
end Calculator
