import Calculator.Error
import Calculator.Evaluator.Run
import Calculator.Grammar

/-!
# Sessions

A session answers one request after the other and keeps the variables, the
functions and the value of the last expression in between.  A request that
fails leaves the session as it was.
-/

namespace Calculator

/-- What is kept between requests, and what is known of the system that answers
them. -/
structure Session where
  environment : Environment := .empty
  functions : FunctionTable := .empty
  previous : Int64 := 0
  limits : Limits := .standard
  /-- Whether the system grants a stack of so many bytes.  Unless more is known,
  it grants what its addresses can reach. -/
  grants : Nat → Bool := Limits.addressable

/-- What a successful request yields. -/
inductive Outcome
  | value (value : Int64)
  | defined (signature : Signature)
  deriving DecidableEq

namespace Outcome

/-- The wording of an outcome. -/
def text : Outcome → String
  | .value number => Decimal.text number
  | .defined signature => "Define " ++ signature.text

end Outcome

namespace TokenSequence

/-- The sequence with the previous value in front, if the first token begins no
operand. -/
def continuing (previous : Int64) (sequence : TokenSequence) : TokenSequence :=
  match sequence.peek? with
  | none => sequence
  | some first =>
    if first.kind.beginsOperand then sequence
    else sequence.prepend (.ofValue previous)

/-- The tokens of a request.  A request that does not begin with an operand
goes on from the previous value: after `7`, the request `+5` means `7+5`. -/
def ofRequest (previous : Int64) (text : String) :
    Except SyntaxError TokenSequence :=
  (scan 1 text).map (continuing previous)

end TokenSequence

namespace Session

/-- The statement of a request. -/
def read (session : Session) (text : String) :
    Except SyntaxError Statement := do
  let tokens ← TokenSequence.ofRequest session.previous text
  tokens.parse

/-- Carries out a statement.  An expression works on a copy of the variables,
which becomes theirs only if the expression has a value. -/
def execute (session : Session) :
    Statement → Except RuntimeError Outcome × Session
  | .definition function =>
    (.ok (.defined function.signature),
      { session with functions := session.functions.define function })
  | .expression expression =>
    let evaluator : Evaluator :=
      { functions := session.functions, limits := session.limits }
    let result := evaluator.evaluate expression session.environment
    match result.outcome with
    | .error error => (.error error, session)
    | .ok value =>
      (.ok (.value value),
        { session with environment := result.environment, previous := value })

/-- Whether the system grants the stack that a request asks for. -/
def granted (session : Session) : Bool :=
  session.grants session.limits.stackSize

/-- Answers a request.  The stack for it is asked for first. -/
def evaluate (session : Session) (text : String) :
    Except Error Outcome × Session :=
  if session.granted then
    match session.read text with
    | .error error => (.error (.ofSyntax error), session)
    | .ok statement =>
      let (outcome, after) := session.execute statement
      (outcome.mapError .ofRuntime, after)
  else
    (.error (.ofRuntime (.stackUnavailable session.limits.stackSize)), session)

end Session
end Calculator
