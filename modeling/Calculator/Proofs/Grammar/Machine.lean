import Calculator.Proofs.Grammar.Steps

/-!
# The parser as a machine

The productions of the grammar may also be run by a machine that owns a token
sequence and moves its cursor.  Besides, it counts how deep it is nested and
notes the height of the tree that was read last; both are shared by all
productions.  Nothing but its check of the nesting keeps the productions from
calling each other for ever.  A run is therefore only followed to some depth of
calls, and whether it comes to an end is a question of its own.
-/

namespace Calculator

/-- What the machine keeps: its tokens, how deep it is nested, and the height of
the tree that was read last. -/
structure Parser where
  sequence : TokenSequence
  nesting : Nat
  height : Nat

namespace Parser

open Grammar

/-- The machine as it is, and as it was before, latest first. -/
structure Course where
  parser : Parser
  past : List Parser

/-- A computation of the machine, which yields nothing if it is not followed to
its end.  An error leaves the machine as it is by then. -/
abbrev Parsing (Result : Type) :=
  ExceptT SyntaxError (StateT Course Option) Result

/-! ### What the machine can do -/

/-- The computation that is not followed any further. -/
def unfinished {Result : Type} : Parsing Result :=
  fun _ => none

/-- Changes the machine. -/
def change (update : Parser → Parser) : Parsing Unit :=
  modify fun course => ⟨update course.parser, course.parser :: course.past⟩

/-- The machine as it is. -/
def current : Parsing Parser := do
  let course ← get
  return course.parser

/-- Consumes the next token. -/
def advance : Parsing Unit :=
  change fun parser => { parser with sequence := parser.sequence.advance.2 }

/-- The height that was noted last. -/
def noted : Parsing Nat := do
  let parser ← current
  return parser.height

/-- Notes the height of a tree. -/
def note (height : Nat) : Parsing Unit :=
  change ({ · with height })

/-- Goes one level deeper. -/
def enter : Parsing Unit :=
  change fun parser => { parser with nesting := parser.nesting + 1 }

/-- Comes back from the level that was entered last. -/
def leave : Parsing Unit :=
  change fun parser => { parser with nesting := parser.nesting - 1 }

/-- The next token. -/
def peek? : Parsing (Option Token) := do
  let parser ← current
  return parser.sequence.peek?

/-- Consumes the next token if it is of an accepted kind. -/
def match? (accepts : TokenKind → Bool) : Parsing (Option Token) := do
  match ← peek? with
  | none => return none
  | some token =>
    if accepts token.kind then
      advance
      return some token
    else
      return none

/-- Consumes the next token, which has to be of the given kind. -/
def consume (kind : TokenKind) (wanted : String) : Parsing Token := do
  match ← peek? with
  | none => throw (.unexpectedEnd wanted)
  | some token =>
    if token.kind = kind then
      advance
      return token
    else
      throw (.expected token.span wanted token.lexeme)

/-- Consumes a name other than the keyword. -/
def name (wanted : String) : Parsing Name := do
  let token ← consume .name wanted
  match nameOf token with
  | .error error => throw error
  | .ok name => return name

/-- Notes the height of a tree whose tallest part has the given height. -/
def grow (tallest : Nat) (place : Span) : Parsing Unit :=
  match Grammar.grow tallest place with
  | .error error => throw error
  | .ok taller => note taller

/-- Goes on even if a computation fails. -/
def attempt {Result : Type} (parsing : Parsing Result) :
    Parsing (Except SyntaxError Result) :=
  ExceptT.lift parsing.run

/-! ### Productions -/

/-- The productions of expressions; a chain is a comparison, a sum or a product.
-/
inductive Production
  | assign
  | assignment
  | conditional
  | chain (level : Level)
  | factor
  | primary
  | call

/-- What stands between the operators of a level. -/
def operand : Level → Production
  | .product => .factor
  | .sum => .chain .product
  | .comparison => .chain .sum

mutual

/-- Runs a production, with as many calls inside each other as `depth` says. -/
def run : (depth : Nat) → Production → Parsing Expr
  | 0, _ => unfinished
  | depth + 1, .assign => nested depth .assignment
  | depth + 1, .factor => nested depth .primary
  | depth + 1, .assignment => do
    let target ← run depth .conditional
    let targetHeight ← noted
    match ← match? (· = .equal) with
    | none => return target
    | some _ =>
      let value ← run depth .assign
      match target with
      | .var name =>
        grow (max targetHeight (← noted)) value.span
        return .assign (.var name) value
      | other =>
        throw (.invalidAssignmentTarget other.span other.infixText)
  | depth + 1, .conditional => do
    let test ← run depth (.chain .comparison)
    conditionalFrom depth test (← noted)
  | depth + 1, .chain level => do
    let first ← run depth (operand level)
    chainFrom depth level first (← noted)
  | depth + 1, .primary => do
    match ← peek? with
    | none => throw (.unexpectedEnd "expression")
    | some token =>
      match token.kind with
      | .number =>
        advance
        note 1
        return .literal token.value token.span
      | .leftParenthesis =>
        advance
        let inner ← run depth .assign
        let _ ← consume .rightParenthesis "')'"
        return inner
      | .minus =>
        advance
        let product ← run depth (.chain .product)
        grow (← noted) token.span
        return .binary .minus (.literal 0 token.span) product
      | .name =>
        let second := (← current).sequence.peekAt? 1
        if second.map Token.kind = some .leftParenthesis then
          run depth .call
        else
          let name ← name "variable"
          note 1
          return .var name
      | _ => throw (.expected token.span "expression" token.lexeme)
  | depth + 1, .call => do
    let callee ← name "function name"
    let _ ← consume .leftParenthesis "'('"
    let given ← argumentsOf depth callee
    let close ← consume .rightParenthesis "')'"
    grow given.height close.span
    return .call callee given.expressions close.span

/-- Runs a production one level deeper, and comes back to the level of before
however the production ends. -/
def nested : (depth : Nat) → Production → Parsing Expr
  | 0, _ => unfinished
  | depth + 1, production => do
    let parser ← current
    if parser.nesting = maximumNesting then
      let place := (parser.sequence.peek?.map Token.span).getD .unknown
      throw (.tooDeep place maximumNesting)
    else
      enter
      let outcome ← attempt (run depth production)
      leave
      match outcome with
      | .error error => throw error
      | .ok expression => return expression

/-- Goes on with a conditional after its test. -/
def conditionalFrom :
    (depth : Nat) → (test : Expr) → (tallest : Nat) → Parsing Expr
  | 0, _, _ => unfinished
  | depth + 1, test, tallest => do
    match ← match? (· = .question) with
    | none =>
      note tallest
      return test
    | some _ =>
      let onTrue ← run depth .assign
      let tallest := max tallest (← noted)
      let _ ← consume .colon "':'"
      let onFalse ← run depth .assign
      grow (max tallest (← noted)) onFalse.span
      conditionalFrom depth (.conditional test onTrue onFalse) (← noted)

/-- Goes on with a chain of operations after its left operand. -/
def chainFrom :
    (depth : Nat) → Level → (left : Expr) → (tallest : Nat) → Parsing Expr
  | 0, _, _, _ => unfinished
  | depth + 1, level, left, tallest => do
    match ← match? fun kind => (level.operator? kind).isSome with
    | none =>
      note tallest
      return left
    | some token =>
      let right ← run depth (operand level)
      grow (max tallest (← noted)) token.span
      let tallest ← noted
      match level.operator? token.kind with
      | none => throw (.unexpectedToken token.span token.lexeme)
      | some operator =>
        chainFrom depth level (.binary operator left right) tallest

/-- The arguments of a call, of which there may be none. -/
def argumentsOf : (depth : Nat) → (callee : Name) → Parsing MeasuredAll
  | 0, _ => unfinished
  | depth + 1, callee => do
    let next ← peek?
    if next.map Token.kind = some .rightParenthesis then
      return ⟨[], 0⟩
    else
      argumentsFrom depth callee ⟨[], 0⟩

/-- Goes on with the arguments of a call after those that were read. -/
def argumentsFrom :
    (depth : Nat) → (callee : Name) → (before : MeasuredAll) →
      Parsing MeasuredAll
  | 0, _, _ => unfinished
  | depth + 1, callee, before => do
    if before.expressions.length = maximumArity then
      throw (.tooManyArguments callee.span callee.text maximumArity)
    else
      let next ← run depth .assign
      let given : MeasuredAll :=
        ⟨before.expressions ++ [next], max before.height (← noted)⟩
      match ← match? (· = .comma) with
      | none => return given
      | some _ => argumentsFrom depth callee given

end

/-! ### Requests -/

/-- Goes on with the parameters of a function after those that were read. -/
def parametersFrom (function : Name) :
    (depth : Nat) → (before : List Name) → Parsing (List Name)
  | 0, _ => unfinished
  | depth + 1, before => do
    let parameter ← name "parameter name"
    match admitParameter function before parameter with
    | .error error => throw error
    | .ok names =>
      match ← match? (· = .comma) with
      | none => return names
      | some _ => parametersFrom function depth names

/-- The parameters of a function, of which there may be none. -/
def parametersOf (depth : Nat) (function : Name) : Parsing (List Name) := do
  let next ← peek?
  if next.map Token.kind = some .rightParenthesis then
    return []
  else
    parametersFrom function depth []

/-- The rest of a function definition after the keyword. -/
def definition (depth : Nat) : Parsing FunctionDefinition := do
  let function ← name "function name"
  let _ ← consume .leftParenthesis "'('"
  let parameters ← parametersOf depth function
  let _ ← consume .rightParenthesis "')'"
  let _ ← consume .equal "'='"
  let body ← run depth .assign
  return ⟨function, parameters, body⟩

/-- A definition if the keyword comes first, and an expression otherwise. -/
def statement (depth : Nat) : Parsing Statement := do
  let next ← peek?
  if next.any Token.isDefinitionKeyword then
    advance
    let function ← definition depth
    return .definition function
  else
    let value ← run depth .assign
    return .expression value

/-- A request, of which all tokens have to be used. -/
def request (depth : Nat) : Parsing Statement := do
  let statement ← statement depth
  match ← peek? with
  | none => return statement
  | some token => throw (.unexpectedToken token.span token.lexeme)

/-- The machine with its cursor on a sequence, before it has done anything. -/
def ofSequence (sequence : TokenSequence) : Parser :=
  ⟨sequence, 0, 0⟩

/-- What the machine makes of a sequence, if it is followed to its end. -/
def parse (depth : Nat) (sequence : TokenSequence) :
    Option (Except SyntaxError Statement) :=
  (request depth ⟨ofSequence sequence, []⟩).map Prod.fst

end Parser
end Calculator
