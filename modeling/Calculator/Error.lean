import Calculator.RuntimeError
import Calculator.SyntaxError

/-!
# Errors

A failed request, whether it was not well formed or had no value, and the
coarse kinds that failures are reported under.
-/

namespace Calculator

/-- The kinds of failures. -/
inductive ErrorKind
  | malformedSyntax
  | undefinedFunction
  | arithmeticFault
  | parameterOrArgumentOverflow
  | arityMismatch
  | callDepthExceeded
  | resourceExhausted
  deriving DecidableEq

namespace ErrorKind

/-- The name that a kind is reported by. -/
def label : ErrorKind → String
  | .malformedSyntax => "MalformedSyntax"
  | .undefinedFunction => "UndefinedFunction"
  | .arithmeticFault => "ArithmeticFault"
  | .parameterOrArgumentOverflow => "ParameterOrArgumentOverflow"
  | .arityMismatch => "ArityMismatch"
  | .callDepthExceeded => "CallDepthExceeded"
  | .resourceExhausted => "ResourceExhausted"

end ErrorKind

namespace SyntaxError

/-- The kind of a syntax error. -/
def kind (error : SyntaxError) : ErrorKind :=
  if error.isOverflow then .parameterOrArgumentOverflow else .malformedSyntax

end SyntaxError

namespace RuntimeError

/-- The kind of a runtime error; both limits of evaluation count as one. -/
def kind : RuntimeError → ErrorKind
  | .undefinedFunction .. => .undefinedFunction
  | .divisionByZero .. => .arithmeticFault
  | .arityMismatch .. => .arityMismatch
  | .callDepthExceeded .. | .nestingTooDeep _ => .callDepthExceeded
  | .stackUnavailable _ => .resourceExhausted

end RuntimeError

/-- A failed request. -/
inductive Error
  | ofSyntax (error : SyntaxError)
  | ofRuntime (error : RuntimeError)
  deriving DecidableEq

namespace Error

/-- The kind of a failure. -/
def kind : Error → ErrorKind
  | .ofSyntax error => error.kind
  | .ofRuntime error => error.kind

/-- The place that a failure points at. -/
def span : Error → Span
  | .ofSyntax error => error.span
  | .ofRuntime error => error.span

/-- The wording of a failure. -/
def message : Error → String
  | .ofSyntax error => "syntax error: " ++ error.message
  | .ofRuntime error => "runtime error: " ++ error.message

end Error
end Calculator
