import Calculator.Grammar.Expression
import Calculator.Statement
import Calculator.TokenSequence

/-!
# The grammar of requests

A request is an expression or the definition of a function:

    define  'deffn' NAME '(' [NAME (',' NAME)*] ')' '=' assign | assign

All of its tokens have to be used.
-/

namespace Calculator
namespace Grammar

/-- Goes on with the parameters of a function after those in `before`. -/
def parametersFrom (function : Name) (before : List Name)
    (tokens : List Token) : Except SyntaxError (List Name × List Token) := do
  let next ← expect .name "parameter name" tokens
  let parameter ← nameOf next.token
  if before.any (·.text = parameter.text) then
    .error (.duplicateParameter parameter.span parameter.text)
  else if before.length = maximumArity then
    .error (.tooManyParameters parameter.span function.text maximumArity)
  else
    let names := before ++ [parameter]
    match take? .comma next.rest with
    | none => return (names, next.rest)
    | some comma => parametersFrom function names comma.rest
termination_by tokens.length
decreasing_by exact Nat.lt_trans comma.rest_lt next.rest_lt

/-- The parameters of a function, of which there may be none. -/
def parameters (function : Name) (tokens : List Token) :
    Except SyntaxError (List Name × List Token) :=
  match take? .rightParenthesis tokens with
  | some _ => .ok ([], tokens)
  | none => parametersFrom function [] tokens

/-- The rest of a function definition after the keyword. -/
def definition (tokens : List Token) :
    Except SyntaxError (FunctionDefinition × List Token) := do
  let nameToken ← expect .name "function name" tokens
  let name ← nameOf nameToken.token
  let opening ← expect .leftParenthesis "'('" nameToken.rest
  let (names, rest) ← parameters name opening.rest
  let closing ← expect .rightParenthesis "')'" rest
  let sign ← expect .equal "'='" closing.rest
  let body ← expression sign.rest
  return (⟨name, names, body.expression⟩, body.rest)

/-- A definition if the keyword comes first, and an expression otherwise. -/
def statement (tokens : List Token) :
    Except SyntaxError (Statement × List Token) :=
  match tokens with
  | token :: rest =>
    if token.isDefinitionKeyword then do
      let (function, rest) ← definition rest
      return (.definition function, rest)
    else do
      let value ← expression (token :: rest)
      return (.expression value.expression, value.rest)
  | [] => do
    let value ← expression []
    return (.expression value.expression, value.rest)

end Grammar

namespace Statement

/-- Reads a request, of which all tokens have to be used. -/
def parse (tokens : List Token) : Except SyntaxError Statement := do
  let (statement, rest) ← Grammar.statement tokens
  match rest with
  | [] => return statement
  | token :: _ => .error (.unexpectedToken token.span token.lexeme)

end Statement

namespace TokenSequence

/-- Reads the tokens that remain as a request. -/
def parse (sequence : TokenSequence) : Except SyntaxError Statement :=
  Statement.parse sequence.remaining

end TokenSequence
end Calculator
