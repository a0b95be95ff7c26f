import Calculator.Expr.Text
import Calculator.Grammar.Rule

/-!
# The grammar of expressions

From the loosest level to the tightest:

    assign       conditional ['=' assign]
    conditional  comparison ('?' assign ':' assign)*
    comparison   sum (('<' | '<=' | '>' | '>=' | '==' | '!=') sum)*
    sum          product (('+' | '-') product)*
    product      factor (('*' | '/' | '%') factor)*
    factor       NUMBER | '(' assign ')' | '-' product
                 | NAME '(' [assign (',' assign)*] ')' | NAME

Each level is a rule built from the rules it refers to.  Only `assign` and
`factor` refer back to the whole grammar; they tie the knot by recursion on the
room that is left for nesting.
-/

namespace Calculator
namespace Grammar

/-- Goes on with a chain of operations after its left operand. -/
def chainFrom (operator? : TokenKind → Option Operator) (operand : Rule)
    {bound : Nat} (left : Expr) (height : Nat) (tokens : List Token)
    (tokens_lt : tokens.length < bound) : Except SyntaxError (Parsed bound) :=
  match tokens with
  | [] => .ok ⟨left, height, [], tokens_lt⟩
  | token :: rest =>
    match operator? token.kind with
    | none => .ok ⟨left, height, token :: rest, tokens_lt⟩
    | some operator => do
      let right ← operand rest
      have rest_lt := right.rest_lt
      let height ← grow (max height right.height) token.span
      chainFrom operator? operand (.binary operator left right.expression)
        height right.rest (by simp only [List.length_cons] at tokens_lt; omega)
termination_by tokens.length
decreasing_by simp only [List.length_cons]; omega

/-- Operands with operators of one level between them, grouped to the left. -/
def chain (operator? : TokenKind → Option Operator) (operand : Rule) : Rule :=
  fun tokens => do
    let first ← operand tokens
    chainFrom operator? operand first.expression first.height first.rest
      first.rest_lt

/-- Products of factors. -/
def product (factor : Rule) : Rule :=
  chain Operator.ofProduct? factor

/-- Sums of products. -/
def sum (factor : Rule) : Rule :=
  chain Operator.ofSum? (product factor)

/-- Comparisons of sums. -/
def comparison (factor : Rule) : Rule :=
  chain Operator.ofComparison? (sum factor)

/-- Goes on with a conditional after its test. -/
def conditionalFrom (branch : Rule) {bound : Nat} (test : Expr) (height : Nat)
    (tokens : List Token) (tokens_lt : tokens.length < bound) :
    Except SyntaxError (Parsed bound) :=
  match take? .question tokens with
  | none => .ok ⟨test, height, tokens, tokens_lt⟩
  | some question => do
    have question_lt := question.rest_lt
    let onTrue ← branch question.rest
    have onTrue_lt := onTrue.rest_lt
    let colon ← expect .colon "':'" onTrue.rest
    have colon_lt := colon.rest_lt
    let onFalse ← branch colon.rest
    have onFalse_lt := onFalse.rest_lt
    let height ← grow (max (max height onTrue.height) onFalse.height)
      onFalse.expression.span
    conditionalFrom branch
      (.conditional test onTrue.expression onFalse.expression) height
      onFalse.rest (by omega)
termination_by tokens.length

/-- A comparison, or a conditional with a comparison as its test. -/
def conditional (assign factor : Rule) : Rule :=
  fun tokens => do
    let test ← comparison factor tokens
    conditionalFrom assign test.expression test.height test.rest test.rest_lt

/-- A conditional, or an assignment to a variable.  Assignments group to the
right, and the value is read before the target is judged. -/
def assignment (assign factor : Rule) : Rule :=
  fun tokens => do
    let target ← conditional assign factor tokens
    match take? .equal target.rest with
    | none => return target
    | some sign =>
      let value ← assign sign.rest
      match target.expression with
      | .var name =>
        let height ← grow (max target.height value.height)
          value.expression.span
        return ⟨.assign (.var name) value.expression, height, value.rest,
          Nat.lt_trans value.rest_lt (Nat.lt_trans sign.rest_lt target.rest_lt)⟩
      | other =>
        .error (.invalidAssignmentTarget other.span other.infixText)

/-- The arguments of a call, the height of the tallest and the tokens after
them, of which there are fewer than `bound`. -/
structure ParsedArguments (bound : Nat) where
  expressions : List Expr
  height : Nat
  rest : List Token
  rest_lt : rest.length < bound

/-- Goes on with the arguments of a call after those in `before`. -/
def argumentsFrom (argument : Rule) (callee : Name) {bound : Nat}
    (before : List Expr) (height : Nat) (tokens : List Token)
    (tokens_lt : tokens.length < bound) :
    Except SyntaxError (ParsedArguments bound) :=
  if before.length = maximumArity then
    .error (.tooManyArguments callee.span callee.text maximumArity)
  else do
    let next ← argument tokens
    have next_lt := next.rest_lt
    let expressions := before ++ [next.expression]
    let height := max height next.height
    match take? .comma next.rest with
    | none => return ⟨expressions, height, next.rest, by omega⟩
    | some comma =>
      have comma_lt := comma.rest_lt
      argumentsFrom argument callee expressions height comma.rest (by omega)
termination_by tokens.length

/-- The arguments of a call, of which there may be none. -/
def arguments (argument : Rule) (callee : Name) (tokens : List Token) :
    Except SyntaxError (ParsedArguments (tokens.length + 1)) :=
  match take? .rightParenthesis tokens with
  | some _ => .ok ⟨[], 0, tokens, Nat.lt_succ_self _⟩
  | none =>
    argumentsFrom argument callee [] 0 tokens (Nat.lt_succ_self _)

/-- The rest of a call after its opening parenthesis. -/
def call (argument : Rule) (callee : Name) : Rule :=
  fun tokens => do
    let given ← arguments argument callee tokens
    let close ← expect .rightParenthesis "')'" given.rest
    let height ← grow given.height close.token.span
    return ⟨.call callee given.expressions close.token.span, height, close.rest,
      Nat.lt_of_lt_of_le close.rest_lt (Nat.le_of_lt_succ given.rest_lt)⟩

/-- What may stand on its own as an operand.  A unary minus takes the whole
product after it and counts as a subtraction from zero. -/
def primary (assign factor : Rule) : Rule
  | [] => .error (.unexpectedEnd "expression")
  | token :: rest =>
    match token.kind with
    | .number =>
      .ok ⟨.literal token.value token.span, 1, rest, rest_lt_cons token rest⟩
    | .leftParenthesis => do
      let inner ← assign rest
      let close ← expect .rightParenthesis "')'" inner.rest
      return ⟨inner.expression, inner.height, close.rest,
        Nat.lt_succ_of_lt (Nat.lt_trans close.rest_lt inner.rest_lt)⟩
    | .minus => do
      let operand ← product factor rest
      let height ← grow operand.height token.span
      return ⟨.binary .minus (.literal 0 token.span) operand.expression, height,
        operand.rest, Nat.lt_succ_of_lt operand.rest_lt⟩
    | .name => do
      let name ← nameOf token
      match take? .leftParenthesis rest with
      | none => return ⟨.var name, 1, rest, rest_lt_cons token rest⟩
      | some opening =>
        let called ← call assign name opening.rest
        return { called with
          rest_lt := Nat.lt_succ_of_lt
            (Nat.lt_trans called.rest_lt opening.rest_lt) }
    | _ => .error (.expected token.span "expression" token.lexeme)

mutual

/-- The loosest level, with room for so many nested entries. -/
def assign : Nat → Rule
  | 0 => exhausted
  | room + 1 => assignment (assign room) (factor room)

/-- The tightest level, with room for so many nested entries. -/
def factor : Nat → Rule
  | 0 => exhausted
  | room + 1 => primary (assign room) (factor room)

end

/-- A whole expression. -/
def expression : Rule :=
  assign maximumNesting

end Grammar
end Calculator
