import Calculator.Expr
import Calculator.SyntaxError

/-!
# Rules of the grammar

A rule reads an expression off the front of a list of tokens.  What it read
comes with a proof that fewer tokens are left, which is why loops over rules
end.  The height of the expression is counted along with it, since a tree may
not grow beyond a fixed height.
-/

namespace Calculator
namespace Grammar

/-- The greatest number of parameters of a function, and of arguments of a
call. -/
def maximumArity : Nat := 10

/-- How often the grammar may be entered again inside one request.  Every
parenthesis, unary minus, branch, argument and chained assignment goes deeper.
-/
def maximumNesting : Nat := 512

/-- The greatest height of an expression. -/
def maximumHeight : Nat := 1024

/-- What a rule read: an expression, its height and the tokens after it, of
which there are fewer than `bound`. -/
structure Parsed (bound : Nat) where
  expression : Expr
  height : Nat
  rest : List Token
  rest_lt : rest.length < bound

/-- A rule reads an expression and consumes at least one token. -/
abbrev Rule :=
  (tokens : List Token) → Except SyntaxError (Parsed tokens.length)

/-- Tokens without the first are fewer. -/
theorem rest_lt_cons (token : Token) (rest : List Token) :
    rest.length < (token :: rest).length :=
  Nat.lt_succ_self _

/-- One token taken off the front of fewer than `bound` tokens. -/
structure Taken (bound : Nat) where
  token : Token
  rest : List Token
  rest_lt : rest.length < bound

/-- Takes the next token if it is of the given kind. -/
def take? (kind : TokenKind) :
    (tokens : List Token) → Option (Taken tokens.length)
  | [] => none
  | token :: rest =>
    if token.kind = kind then some ⟨token, rest, rest_lt_cons token rest⟩
    else none

/-- Takes the next token, which has to be of the given kind; `wanted` is the
word for it in errors. -/
def expect (kind : TokenKind) (wanted : String) :
    (tokens : List Token) → Except SyntaxError (Taken tokens.length)
  | [] => .error (.unexpectedEnd wanted)
  | token :: rest =>
    if token.kind = kind then .ok ⟨token, rest, rest_lt_cons token rest⟩
    else .error (.expected token.span wanted token.lexeme)

/-- The name that a name token stands for; the keyword is not one. -/
def nameOf (token : Token) : Except SyntaxError Name :=
  if token.lexeme = definitionKeyword then
    .error (.reservedWord token.span token.lexeme)
  else
    .ok ⟨token.lexeme, token.span⟩

/-- The place of the next token. -/
def nextSpan : List Token → Span
  | [] => .unknown
  | token :: _ => token.span

/-- The height of a tree whose tallest part has the given height. -/
def grow (height : Nat) (place : Span) : Except SyntaxError Nat :=
  if maximumHeight ≤ height then .error (.tooDeep place maximumHeight)
  else .ok (height + 1)

/-- The rule that is left when the request is nested too deeply. -/
def exhausted : Rule :=
  fun tokens => .error (.tooDeep (nextSpan tokens) maximumNesting)

end Grammar
end Calculator
