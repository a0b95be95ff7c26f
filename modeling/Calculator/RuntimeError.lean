import Calculator.Location

/-!
# Runtime errors

The reasons for which the evaluation of a well-formed request ends without a
value, and their wording.
-/

namespace Calculator

/-- An evaluation without a value. -/
inductive RuntimeError
  | undefinedFunction (name : String) (span : Span)
  | divisionByZero (expression : String) (span : Span)
  | arityMismatch (name : String) (arity given : Nat) (span : Span)
  | callDepthExceeded (name : String) (limit : Nat)
  | nestingTooDeep (limit : Nat)
  | stackUnavailable (bytes : Nat)
  deriving DecidableEq

namespace RuntimeError

/-- The place that an error points at. -/
def span : RuntimeError → Span
  | .undefinedFunction _ span | .divisionByZero _ span
  | .arityMismatch _ _ _ span => span
  | .callDepthExceeded .. | .nestingTooDeep _ | .stackUnavailable _ => .unknown

/-- The wording of an error. -/
def message : RuntimeError → String
  | .undefinedFunction name span =>
    s!"undefined function '{name}' at {span.text}"
  | .divisionByZero expression span =>
    s!"division by zero in {expression} at {span.text}"
  | .arityMismatch name arity given span =>
    s!"'{name}' takes {arity} arguments but {given} were given at {span.text}"
  | .callDepthExceeded name limit =>
    s!"call to '{name}' exceeds the maximum call depth of {limit}"
  | .nestingTooDeep limit =>
    s!"evaluation nests deeper than {limit} levels"
  | .stackUnavailable bytes =>
    s!"cannot reserve a {bytes} byte stack for evaluation"

end RuntimeError
end Calculator
