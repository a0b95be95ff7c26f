import Calculator.Console.Output
import Calculator.Session

/-!
# Inspection

The tokens and the tree of a request, as they are shown while debugging.
-/

namespace Calculator
namespace Console

/-- The lines that show a statement. -/
def statementLines : Statement → List String
  | .expression expression =>
    [ "tree:   " ++ expression.infixText,
      "lisp:   " ++ expression.lispText ]
  | .definition function =>
    [ "define: " ++ function.signature.text ++ " = " ++
        function.body.infixText,
      "lisp:   " ++ function.body.lispText ]

/-- The lines that show a request, up to the first error in it. -/
def inspectionLines (previous : Int64) (request : String) : List String :=
  match TokenSequence.ofRequest previous request with
  | .error error => ["tokens: " ++ error.message]
  | .ok sequence =>
    ("tokens: " ++ " ".intercalate (sequence.tokens.map Token.text)) ::
      match sequence.parse with
      | .error error => ["parse:  " ++ error.message]
      | .ok statement => statementLines statement

/-- Shows a request on the diagnostic stream. -/
def inspect (previous : Int64) (request : String) : List Output :=
  (inspectionLines previous request).map fun line => .diagnostic (line ++ "\n")

end Console
end Calculator
