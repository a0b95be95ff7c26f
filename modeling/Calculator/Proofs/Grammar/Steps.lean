import Calculator.Proofs.Grammar.Rule

/-!
# Rules as steps

A rule says how many tokens it leaves, which is what its recursion needs.  Seen
from outside it is a step: it takes tokens off the front of those that are left
and yields something, or it fails.  Every rule is put together from steps that
expect a token, look at the next one, or only compute.  What holds of these, and
of steps one after the other, then holds of the whole grammar.
-/

namespace Calculator
namespace Grammar

/-- A step takes tokens off the front of those that are left. -/
abbrev Step (Result : Type) := StateT (List Token) (Except SyntaxError) Result

namespace Step

variable {Result Result' Choice : Type}

theorem bind_apply (first : Step Result) (next : Result → Step Result')
    (tokens : List Token) :
    (first >>= next) tokens = first tokens >>= fun read => next read.1 read.2 :=
  rfl

/-- A step that takes no token. -/
def lift (outcome : Except SyntaxError Result) : Step Result :=
  fun tokens => outcome.map (·, tokens)

theorem rest_eq_of_lift {outcome : Except SyntaxError Result}
    {tokens rest : List Token} {result : Result}
    (computed : lift outcome tokens = .ok (result, rest)) : rest = tokens := by
  cases outcome with
  | error error => cases computed
  | ok value =>
      cases computed
      rfl

/-- Takes the next token, which has to be of the given kind. -/
def expect (kind : TokenKind) (wanted : String) : Step Token :=
  fun tokens =>
    (Grammar.expect kind wanted tokens).map fun taken =>
      (taken.token, taken.rest)

theorem expect_nil (kind : TokenKind) (wanted : String) :
    expect kind wanted [] = .error (.unexpectedEnd wanted) :=
  rfl

theorem expect_cons (kind : TokenKind) (wanted : String) (token : Token)
    (rest : List Token) :
    expect kind wanted (token :: rest) =
      if token.kind = kind then .ok (token, rest)
      else .error (.expected token.span wanted token.lexeme) := by
  by_cases same : token.kind = kind <;>
    simp [expect, Grammar.expect, same, Except.map]

theorem rest_lt_of_expect {kind : TokenKind} {wanted : String}
    {tokens rest : List Token} {token : Token}
    (read : expect kind wanted tokens = .ok (token, rest)) :
    rest.length < tokens.length := by
  cases tokens with
  | nil => cases read
  | cons first later =>
      rw [expect_cons] at read
      split at read
      · cases read
        exact Nat.lt_succ_self _
      · cases read

/-- Takes the next token, which has to be a name other than the keyword. -/
def name (wanted : String) : Step Name := do
  let token ← expect .name wanted
  lift (nameOf token)

theorem rest_lt_of_name {wanted : String} {tokens rest : List Token}
    {result : Name} (read : name wanted tokens = .ok (result, rest)) :
    rest.length < tokens.length := by
  unfold name at read
  rw [bind_apply] at read
  obtain ⟨⟨token, afterToken⟩, taken, named⟩ := bind_eq_ok.mp read
  rw [rest_eq_of_lift named]
  exact rest_lt_of_expect taken

/-- Takes the next token if it is of a kind that offers a choice. -/
def branch (choice? : TokenKind → Option Choice) (absent : Step Result)
    (present : Choice → Token → Step Result) : Step Result
  | [] => absent []
  | token :: rest =>
    match choice? token.kind with
    | none => absent (token :: rest)
    | some choice => present choice token rest

/-- Goes by the kind of the next token without taking it. -/
def peek (kind : TokenKind) (present absent : Step Result) : Step Result :=
  fun tokens =>
    if nextKind? tokens = some kind then present tokens else absent tokens

end Step

/-- Tokens of one kind offer the only choice. -/
def only (kind other : TokenKind) : Option Unit :=
  if other = kind then some () else none

/-- An expression and the height that is counted along with it. -/
structure Measured where
  expression : Expr
  height : Nat

/-- Expressions and the height of the tallest. -/
structure MeasuredAll where
  expressions : List Expr
  height : Nat

/-- What was read, without the bound on what is left. -/
def Parsed.outcome {bound : Nat} (parsed : Parsed bound) :
    Measured × List Token :=
  (⟨parsed.expression, parsed.height⟩, parsed.rest)

/-- What was read, without the bound on what is left. -/
def ParsedArguments.outcome {bound : Nat} (parsed : ParsedArguments bound) :
    MeasuredAll × List Token :=
  (⟨parsed.expressions, parsed.height⟩, parsed.rest)

/-- A rule as a step. -/
def step (rule : Rule) : Step Measured :=
  fun tokens => (rule tokens).map Parsed.outcome

theorem rest_lt_of_step {rule : Rule} {tokens rest : List Token}
    {measured : Measured} (read : step rule tokens = .ok (measured, rest)) :
    rest.length < tokens.length := by
  unfold step at read
  cases found : rule tokens with
  | error error =>
      rw [found] at read
      cases read
  | ok parsed =>
      rw [found] at read
      cases read
      exact parsed.rest_lt

/-- A rule that goes on after a step does so as a step as well. -/
theorem outcome_bind {Read Seen Result Seen' : Type}
    {first : Except SyntaxError Read} {view : Read → Seen}
    {next : Read → Except SyntaxError Result} {view' : Result → Seen'}
    {next' : Seen → Except SyntaxError Seen'}
    (next_eq : ∀ read, (next read).map view' = next' (view read)) :
    (first >>= next).map view' = first.map view >>= next' := by
  cases first with
  | error error => rfl
  | ok read => exact next_eq read

theorem branch_only {Result : Type} (kind : TokenKind) (absent : Step Result)
    (present : Step Result) (tokens : List Token) :
    Step.branch (only kind) absent (fun _ _ => present) tokens =
      match take? kind tokens with
      | none => absent tokens
      | some taken => present taken.rest := by
  cases tokens with
  | nil => rfl
  | cons token rest =>
      by_cases same : token.kind = kind <;>
        simp [Step.branch, only, take?, same]

theorem peek_eq {Result : Type} (kind : TokenKind)
    (present absent : Step Result) (tokens : List Token) :
    Step.peek kind present absent tokens =
      match take? kind tokens with
      | none => absent tokens
      | some _ => present tokens := by
  cases tokens with
  | nil => rfl
  | cons token rest =>
      by_cases same : token.kind = kind <;> simp [Step.peek, take?, same]

theorem bind_map {Read Seen Result : Type}
    (first : Except SyntaxError Read) (view : Read → Seen)
    (next : Seen → Except SyntaxError Result) :
    first.map view >>= next = first >>= fun read => next (view read) := by
  cases first <;> rfl

theorem length_lt_succ (tokens : List Token) :
    tokens.length < tokens.length + 1 :=
  Nat.lt_succ_self _

/-! ### Chains of operations -/

/-- How a chain goes on after its left operand. -/
def chainStep (operator? : TokenKind → Option Operator) (operand : Rule)
    (left : Measured) : Step Measured :=
  fun tokens =>
    (chainFrom operator? operand left.expression left.height tokens
      (length_lt_succ tokens)).map Parsed.outcome

theorem outcome_chainFrom (operator? : TokenKind → Option Operator)
    (operand : Rule) (left : Measured) {bound : Nat} (tokens : List Token)
    (tokens_lt : tokens.length < bound) :
    (chainFrom operator? operand left.expression left.height tokens
      tokens_lt).map Parsed.outcome =
      Step.branch operator? (pure left) (fun operator sign => (do
        let right ← step operand
        let height ← Step.lift (grow (max left.height right.height) sign.span)
        chainStep operator? operand
          ⟨.binary operator left.expression right.expression, height⟩))
        tokens := by
  induction size : tokens.length using Nat.strongRecOn
    generalizing left tokens bound with
  | _ length induction =>
  unfold chainFrom
  cases tokens with
  | nil => rfl
  | cons sign rest =>
      simp only [Step.branch]
      cases found : operator? sign.kind with
      | none => rfl
      | some operator =>
          refine outcome_bind fun right => outcome_bind fun height => ?_
          have shorter : right.rest.length < length := by
            have := right.rest_lt
            simp only [List.length_cons] at size
            omega
          let whole : Measured :=
            ⟨.binary operator left.expression right.expression, height⟩
          -- How many tokens there were before makes no difference.
          exact (induction _ shorter whole right.rest _ rfl).trans
            (induction _ shorter whole right.rest _ rfl).symm

theorem chainStep_eq (operator? : TokenKind → Option Operator) (operand : Rule)
    (left : Measured) :
    chainStep operator? operand left =
      Step.branch operator? (pure left) fun operator sign => (do
        let right ← step operand
        let height ← Step.lift (grow (max left.height right.height) sign.span)
        chainStep operator? operand
          ⟨.binary operator left.expression right.expression, height⟩) :=
  funext fun tokens => outcome_chainFrom operator? operand left tokens _

theorem step_chain (operator? : TokenKind → Option Operator) (operand : Rule) :
    step (chain operator? operand) =
      step operand >>= chainStep operator? operand := by
  funext tokens
  refine outcome_bind fun first => ?_
  let left : Measured := ⟨first.expression, first.height⟩
  exact (outcome_chainFrom operator? operand left first.rest _).trans
    (outcome_chainFrom operator? operand left first.rest _).symm

/-! ### Conditionals and assignments -/

/-- How a conditional goes on after its test. -/
def conditionalStep (branch : Rule) (test : Measured) : Step Measured :=
  fun tokens =>
    (conditionalFrom branch test.expression test.height tokens
      (length_lt_succ tokens)).map Parsed.outcome

theorem outcome_conditionalFrom (branch : Rule) (test : Measured) {bound : Nat}
    (tokens : List Token) (tokens_lt : tokens.length < bound) :
    (conditionalFrom branch test.expression test.height tokens
      tokens_lt).map Parsed.outcome =
      Step.branch (only .question) (pure test) (fun _ _ => (do
        let onTrue ← step branch
        let _ ← Step.expect .colon "':'"
        let onFalse ← step branch
        let height ← Step.lift (grow
          (max (max test.height onTrue.height) onFalse.height)
          onFalse.expression.span)
        conditionalStep branch ⟨.conditional test.expression onTrue.expression
          onFalse.expression, height⟩)) tokens := by
  induction size : tokens.length using Nat.strongRecOn
    generalizing test tokens bound with
  | _ length induction =>
  unfold conditionalFrom
  rw [branch_only]
  cases take? .question tokens with
  | none => rfl
  | some question =>
      refine outcome_bind fun onTrue => outcome_bind fun colon =>
        outcome_bind fun onFalse => outcome_bind fun height => ?_
      have shorter : onFalse.rest.length < length := by
        have := question.rest_lt
        have := onTrue.rest_lt
        have := colon.rest_lt
        have := onFalse.rest_lt
        omega
      let whole : Measured := ⟨.conditional test.expression onTrue.expression
        onFalse.expression, height⟩
      exact (induction _ shorter whole onFalse.rest _ rfl).trans
        (induction _ shorter whole onFalse.rest _ rfl).symm

theorem conditionalStep_eq (branch : Rule) (test : Measured) :
    conditionalStep branch test =
      Step.branch (only .question) (pure test) fun _ _ => (do
        let onTrue ← step branch
        let _ ← Step.expect .colon "':'"
        let onFalse ← step branch
        let height ← Step.lift (grow
          (max (max test.height onTrue.height) onFalse.height)
          onFalse.expression.span)
        conditionalStep branch ⟨.conditional test.expression onTrue.expression
          onFalse.expression, height⟩) :=
  funext fun tokens => outcome_conditionalFrom branch test tokens _

theorem step_conditional (assignRule factorRule : Rule) :
    step (conditional assignRule factorRule) =
      step (comparison factorRule) >>= conditionalStep assignRule := by
  funext tokens
  refine outcome_bind fun test => ?_
  let whole : Measured := ⟨test.expression, test.height⟩
  exact (outcome_conditionalFrom assignRule whole test.rest _).trans
    (outcome_conditionalFrom assignRule whole test.rest _).symm

/-- An assignment to what was read as its target. -/
def store (target value : Measured) : Except SyntaxError Measured :=
  match target.expression with
  | .var name => do
    let height ← grow (max target.height value.height) value.expression.span
    return ⟨.assign (.var name) value.expression, height⟩
  | other => .error (.invalidAssignmentTarget other.span other.infixText)

theorem step_assignment (assignRule factorRule : Rule) :
    step (assignment assignRule factorRule) = (do
      let target ← step (conditional assignRule factorRule)
      Step.branch (only .equal) (pure target) fun _ _ => do
        let value ← step assignRule
        Step.lift (store target value)) := by
  funext tokens
  refine outcome_bind fun target => ?_
  simp only [branch_only, Parsed.outcome]
  cases take? .equal target.rest with
  | none => rfl
  | some sign =>
      refine outcome_bind fun value => ?_
      simp only [store, Step.lift, Parsed.outcome]
      cases target.expression with
      | var name =>
          simp only
          cases grow (max target.height value.height) value.expression.span <;>
            rfl
      | _ => rfl

/-! ### Calls -/

/-- How the arguments of a call go on after those that were read. -/
def argumentsStep (argument : Rule) (callee : Name) (before : MeasuredAll) :
    Step MeasuredAll :=
  fun tokens =>
    (argumentsFrom argument callee before.expressions before.height tokens
      (length_lt_succ tokens)).map ParsedArguments.outcome

/-- Makes sure that one more argument may be given. -/
def admitArgument (callee : Name) (before : MeasuredAll) :
    Except SyntaxError Unit :=
  if before.expressions.length = maximumArity then
    .error (.tooManyArguments callee.span callee.text maximumArity)
  else
    .ok ()

theorem outcome_argumentsFrom (argument : Rule) (callee : Name)
    (before : MeasuredAll) {bound : Nat} (tokens : List Token)
    (tokens_lt : tokens.length < bound) :
    (argumentsFrom argument callee before.expressions before.height tokens
      tokens_lt).map ParsedArguments.outcome = (do
        Step.lift (admitArgument callee before)
        let next ← step argument
        let longer : MeasuredAll := ⟨before.expressions ++ [next.expression],
          max before.height next.height⟩
        Step.branch (only .comma) (pure longer) fun _ _ =>
          argumentsStep argument callee longer) tokens := by
  induction size : tokens.length using Nat.strongRecOn
    generalizing before tokens bound with
  | _ length induction =>
  unfold argumentsFrom
  simp only [Step.bind_apply, Step.lift, admitArgument]
  by_cases full : before.expressions.length = maximumArity
  · simp only [full, if_true]
    rfl
  · simp only [full, if_false]
    refine outcome_bind fun next => ?_
    simp only [branch_only, Parsed.outcome]
    cases separated : take? .comma next.rest with
    | none => rfl
    | some comma =>
        have shorter : comma.rest.length < length := by
          have := next.rest_lt
          have := comma.rest_lt
          omega
        let longer : MeasuredAll := ⟨before.expressions ++ [next.expression],
          max before.height next.height⟩
        exact (induction _ shorter longer comma.rest _ rfl).trans
          (induction _ shorter longer comma.rest _ rfl).symm

theorem argumentsStep_eq (argument : Rule) (callee : Name)
    (before : MeasuredAll) :
    argumentsStep argument callee before = (do
      Step.lift (admitArgument callee before)
      let next ← step argument
      let longer : MeasuredAll := ⟨before.expressions ++ [next.expression],
        max before.height next.height⟩
      Step.branch (only .comma) (pure longer) fun _ _ =>
        argumentsStep argument callee longer) :=
  funext fun tokens => outcome_argumentsFrom argument callee before tokens _

theorem step_call (argument : Rule) (callee : Name) :
    step (call argument callee) = (do
      let given ← Step.peek .rightParenthesis (pure ⟨[], 0⟩)
        (argumentsStep argument callee ⟨[], 0⟩)
      let close ← Step.expect .rightParenthesis "')'"
      let height ← Step.lift (grow given.height close.span)
      pure ⟨.call callee given.expressions close.span, height⟩) := by
  funext tokens
  have arguments_eq : (arguments argument callee tokens).map
      ParsedArguments.outcome =
        Step.peek .rightParenthesis (pure ⟨[], 0⟩)
          (argumentsStep argument callee ⟨[], 0⟩) tokens := by
    rw [peek_eq, arguments]
    cases take? .rightParenthesis tokens <;> rfl
  rw [Step.bind_apply, ← arguments_eq]
  exact outcome_bind fun given => outcome_bind fun close =>
    outcome_bind fun height => rfl

/-! ### Operands -/

/-- How an operand goes on after its first token. -/
def operandStep (assignRule factorRule : Rule) (token : Token) :
    Step Measured :=
  match token.kind with
  | .number => pure ⟨.literal token.value token.span, 1⟩
  | .leftParenthesis => do
    let inner ← step assignRule
    let _ ← Step.expect .rightParenthesis "')'"
    pure inner
  | .minus => do
    let operand ← step (product factorRule)
    let height ← Step.lift (grow operand.height token.span)
    pure ⟨.binary .minus (.literal 0 token.span) operand.expression, height⟩
  | .name => do
    let name ← Step.lift (nameOf token)
    Step.branch (only .leftParenthesis) (pure ⟨.var name, 1⟩) fun _ _ =>
      step (call assignRule name)
  | _ => Step.lift (.error (.expected token.span "expression" token.lexeme))

theorem step_primary (assignRule factorRule : Rule) (token : Token)
    (rest : List Token) :
    step (primary assignRule factorRule) (token :: rest) =
      operandStep assignRule factorRule token rest := by
  simp only [step, primary, operandStep]
  cases token.kind with
  | number => rfl
  | leftParenthesis =>
      exact outcome_bind fun inner => outcome_bind fun close => rfl
  | minus =>
      exact outcome_bind fun operand => outcome_bind fun height => rfl
  | name =>
      refine outcome_bind fun name => ?_
      simp only [branch_only]
      cases take? .leftParenthesis rest with
      | none => rfl
      | some opening =>
          simp only [step]
          cases call assignRule name opening.rest <;> rfl
  | _ => rfl

/-! ### Requests -/

/-- Makes sure that one more parameter may be declared. -/
def admitParameter (function : Name) (before : List Name) (parameter : Name) :
    Except SyntaxError (List Name) :=
  if before.any (·.text = parameter.text) then
    .error (.duplicateParameter parameter.span parameter.text)
  else if before.length = maximumArity then
    .error (.tooManyParameters parameter.span function.text maximumArity)
  else
    .ok (before ++ [parameter])

/-- How the parameters of a function go on after those that were read. -/
def parametersStep (function : Name) (before : List Name) :
    Step (List Name) :=
  parametersFrom function before

theorem parametersStep_eq (function : Name) (before : List Name) :
    parametersStep function before = (do
      let parameter ← Step.name "parameter name"
      let longer ← Step.lift (admitParameter function before parameter)
      Step.branch (only .comma) (pure longer) fun _ _ =>
        parametersStep function longer) := by
  funext tokens
  unfold parametersStep
  rw [parametersFrom]
  simp only [Step.bind_apply, Step.name, Step.expect, Step.lift, bind_map,
    bind_assoc, branch_only]
  congr 1
  funext next
  congr 1
  funext parameter
  unfold admitParameter
  split
  · rfl
  · split
    · rfl
    · rw [ok_bind]
      cases take? .comma next.rest <;> rfl

/-- A definition as a step. -/
def definitionStep : Step FunctionDefinition := do
  let function ← Step.name "function name"
  let _ ← Step.expect .leftParenthesis "'('"
  let names ← Step.peek .rightParenthesis (pure []) (parametersStep function [])
  let _ ← Step.expect .rightParenthesis "')'"
  let _ ← Step.expect .equal "'='"
  let body ← step expression
  pure ⟨function, names, body.expression⟩

theorem parameters_eq (function : Name) :
    parameters function = Step.peek .rightParenthesis (pure [])
      (parametersStep function []) := by
  funext tokens
  rw [peek_eq, parameters]
  cases take? .rightParenthesis tokens <;> rfl

theorem definition_eq : definition = definitionStep := by
  funext tokens
  simp only [definition, definitionStep, Step.bind_apply, Step.name,
    Step.expect, Step.lift, bind_map, bind_assoc, parameters_eq, step]
  rfl

/-- A statement as a step. -/
def statementStep : Step Statement
  | [] => .error (.unexpectedEnd "expression")
  | token :: rest =>
    if token.isDefinitionKeyword then
      (do
        let function ← definitionStep
        pure (.definition function) : Step Statement) rest
    else
      (do
        let value ← step expression
        pure (.expression value.expression) : Step Statement) (token :: rest)

theorem statement_eq : statement = statementStep := by
  funext tokens
  unfold statement statementStep
  cases tokens with
  | nil => rfl
  | cons token rest =>
      simp only [definition_eq, Step.bind_apply, step, bind_map]
      rfl

/-- Makes sure that no token is left. -/
def finish : Step Unit
  | [] => .ok ((), [])
  | token :: _ => .error (.unexpectedToken token.span token.lexeme)

/-- A request as a step that leaves no token. -/
def requestStep : Step Statement := do
  let statement ← statementStep
  finish
  pure statement

end Grammar

open Grammar in
theorem Statement.parse_eq (tokens : List Token) :
    Statement.parse tokens = (requestStep tokens).map Prod.fst := by
  simp only [Statement.parse, requestStep, statement_eq, Step.bind_apply]
  cases statementStep tokens with
  | error error => rfl
  | ok read =>
      obtain ⟨statement, rest⟩ := read
      cases rest <;> rfl

end Calculator
