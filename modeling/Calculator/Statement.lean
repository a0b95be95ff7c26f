import Calculator.Expr

/-!
# Statements

A request is either an expression, which is evaluated, or the definition of a
function, which is registered and echoed by its signature.
-/

namespace Calculator

/-- The name and the parameters of a function. -/
structure Signature where
  name : String
  parameters : List String
  deriving DecidableEq

namespace Signature

/-- The wording of a signature. -/
def text (signature : Signature) : String :=
  signature.name ++ "(" ++ ",".intercalate signature.parameters ++ ")"

end Signature

/-- A function: its name, its parameters and the expression that it yields. -/
structure FunctionDefinition where
  name : Name
  parameters : List Name
  body : Expr

namespace FunctionDefinition

/-- The number of parameters. -/
def arity (definition : FunctionDefinition) : Nat :=
  definition.parameters.length

/-- The names of the parameters. -/
def parameterNames (definition : FunctionDefinition) : List String :=
  definition.parameters.map Name.text

/-- The signature of a function. -/
def signature (definition : FunctionDefinition) : Signature :=
  ⟨definition.name.text, definition.parameterNames⟩

/-- Two functions are alike if they differ at most in places. -/
def alike (first second : FunctionDefinition) : Bool :=
  first.name.text == second.name.text &&
    first.parameterNames == second.parameterNames &&
    first.body.alike second.body

end FunctionDefinition

/-- What a request asks for. -/
inductive Statement
  | expression (expression : Expr)
  | definition (definition : FunctionDefinition)

namespace Statement

/-- Two statements are alike if they differ at most in places. -/
def alike : Statement → Statement → Bool
  | .expression first, .expression second => first.alike second
  | .definition first, .definition second => first.alike second
  | _, _ => false

end Statement
end Calculator
