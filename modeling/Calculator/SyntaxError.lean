import Calculator.Location

/-!
# Syntax errors

The reasons for which a request is refused before anything is evaluated or
registered, and their wording.
-/

namespace Calculator

/-- A request that is not well formed. -/
inductive SyntaxError
  | unrecognizedCharacter (span : Span) (character : Char)
  | expected (span : Span) (wanted found : String)
  | unexpectedEnd (wanted : String)
  | unexpectedToken (span : Span) (found : String)
  | invalidAssignmentTarget (span : Span) (target : String)
  | duplicateParameter (span : Span) (name : String)
  | reservedWord (span : Span) (word : String)
  | tooManyParameters (span : Span) (name : String) (limit : Nat)
  | tooDeep (span : Span) (limit : Nat)
  | tooManyArguments (span : Span) (name : String) (limit : Nat)
  deriving DecidableEq

namespace SyntaxError

/-- The place that an error points at. -/
def span : SyntaxError → Span
  | .unrecognizedCharacter span _ | .expected span _ _
  | .unexpectedToken span _ | .invalidAssignmentTarget span _
  | .duplicateParameter span _ | .reservedWord span _
  | .tooManyParameters span _ _ | .tooDeep span _
  | .tooManyArguments span _ _ => span
  | .unexpectedEnd _ => .unknown

/-- The errors that report too many parameters or arguments. -/
def isOverflow : SyntaxError → Bool
  | .tooManyParameters .. | .tooManyArguments .. => true
  | _ => false

/-- The wording of an error. -/
def message : SyntaxError → String
  | .unrecognizedCharacter span character =>
    s!"unrecognized character '{character}' at {span.text}"
  | .expected span wanted found =>
    s!"expected {wanted} but found '{found}' at {span.text}"
  | .unexpectedEnd wanted =>
    s!"unexpected end of input, expected {wanted}"
  | .unexpectedToken span found =>
    s!"unexpected '{found}' at {span.text}"
  | .invalidAssignmentTarget span target =>
    s!"cannot assign to '{target}' at {span.text}, only variables can be assigned"
  | .duplicateParameter span name =>
    s!"parameter '{name}' declared twice at {span.text}"
  | .reservedWord span word =>
    s!"'{word}' is reserved at {span.text}"
  | .tooManyParameters _ name limit =>
    s!"function '{name}' declares more than {limit} parameters"
  | .tooDeep span limit =>
    s!"expression nests deeper than {limit} levels at {span.text}"
  | .tooManyArguments _ name limit =>
    s!"call to '{name}' passes more than {limit} arguments"

end SyntaxError
end Calculator
