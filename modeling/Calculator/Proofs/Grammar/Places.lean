import Calculator.Proofs.Evaluator.Places
import Calculator.Proofs.Grammar.Steps

/-!
# Places do not matter to the grammar

The grammar looks at the kinds and the characters of tokens, and copies their
places into trees and errors.  From tokens without places it reads the same
statement without places, or it fails in the same way at no place.
-/

namespace Calculator

/-- The same token without its place. -/
def Token.eraseSpan (token : Token) : Token :=
  ⟨token.kind, token.lexeme, .unknown⟩

/-- The same error without its place. -/
def SyntaxError.eraseSpan : SyntaxError → SyntaxError
  | .unrecognizedCharacter _ character =>
    .unrecognizedCharacter .unknown character
  | .expected _ wanted found => .expected .unknown wanted found
  | .unexpectedEnd wanted => .unexpectedEnd wanted
  | .unexpectedToken _ found => .unexpectedToken .unknown found
  | .invalidAssignmentTarget _ target =>
    .invalidAssignmentTarget .unknown target
  | .duplicateParameter _ name => .duplicateParameter .unknown name
  | .reservedWord _ word => .reservedWord .unknown word
  | .tooManyParameters _ name limit => .tooManyParameters .unknown name limit
  | .tooDeep _ limit => .tooDeep .unknown limit
  | .tooManyArguments _ name limit => .tooManyArguments .unknown name limit

/-- The same statement without any places. -/
def Statement.eraseSpans : Statement → Statement
  | .expression value => .expression value.eraseSpans
  | .definition function => .definition function.eraseSpans

namespace Grammar

/-- The same expression without any places. -/
def Measured.eraseSpans (measured : Measured) : Measured :=
  ⟨measured.expression.eraseSpans, measured.height⟩

/-- The same expressions without any places. -/
def MeasuredAll.eraseSpans (measured : MeasuredAll) : MeasuredAll :=
  ⟨measured.expressions.map Expr.eraseSpans, measured.height⟩

namespace Step

variable {Result Result' Choice : Type}

/-- What a step did, without any places. -/
def withoutPlaces (erase : Result → Result) :
    Except SyntaxError (Result × List Token) →
      Except SyntaxError (Result × List Token)
  | .ok (result, rest) => .ok (erase result, rest.map Token.eraseSpan)
  | .error error => .error error.eraseSpan

/-- On these tokens without their places, the second step does what the first
does on the tokens themselves, less the places. -/
def Forgets (erase : Result → Result) (plain erased : Step Result)
    (tokens : List Token) : Prop :=
  erased (tokens.map Token.eraseSpan) = withoutPlaces erase (plain tokens)

namespace Forgets

variable {erase : Result → Result} {erase' : Result' → Result'}
  {plain erased : Step Result} {tokens : List Token}

theorem pure (result : Result) :
    Forgets erase (pure result) (pure (erase result)) tokens :=
  rfl

theorem lift {outcome outcome' : Except SyntaxError Result}
    (outcome_eq : outcome' =
      (outcome.map erase).mapError SyntaxError.eraseSpan) :
    Forgets erase (lift outcome) (lift outcome') tokens := by
  subst outcome_eq
  cases outcome <;> rfl

theorem bind {next next' : Result → Step Result'}
    (first : Forgets erase plain erased tokens)
    (later : ∀ result rest, plain tokens = .ok (result, rest) →
      Forgets erase' (next result) (next' (erase result)) rest) :
    Forgets erase' (plain >>= next) (erased >>= next') tokens := by
  unfold Forgets at first
  simp only [Forgets, bind_apply, first]
  cases read : plain tokens with
  | error error => rfl
  | ok pair => exact later pair.1 pair.2 read

/-- What a step computes first does not move it. -/
theorem lift_bind {outcome outcome' : Except SyntaxError Result}
    {next next' : Result → Step Result'}
    (outcome_eq : outcome' =
      (outcome.map erase).mapError SyntaxError.eraseSpan)
    (later : ∀ result,
      Forgets erase' (next result) (next' (erase result)) tokens) :
    Forgets erase' (Step.lift outcome >>= next) (Step.lift outcome' >>= next')
      tokens := by
  subst outcome_eq
  cases outcome with
  | error error => rfl
  | ok result => exact later result

theorem expect (kind : TokenKind) (wanted : String) :
    Forgets Token.eraseSpan (expect kind wanted) (expect kind wanted)
      tokens := by
  cases tokens with
  | nil => rfl
  | cons token rest =>
      simp only [Forgets, List.map_cons, expect_cons, Token.eraseSpan]
      split <;> rfl

theorem branch {choice? : TokenKind → Option Choice}
    {absent absent' : Step Result} {present present' : Choice → Token →
      Step Result}
    (without : Forgets erase absent absent' tokens)
    (chosen : ∀ choice token rest, tokens = token :: rest →
      Forgets erase (present choice token) (present' choice token.eraseSpan)
        rest) :
    Forgets erase (branch choice? absent present)
      (branch choice? absent' present') tokens := by
  cases tokens with
  | nil => exact without
  | cons token rest =>
      unfold Forgets at without ⊢
      simp only [List.map_cons, Step.branch, Token.eraseSpan] at without ⊢
      cases choice? token.kind with
      | none => exact without
      | some choice => exact chosen choice token rest rfl

theorem peek (kind : TokenKind) {present present' absent absent' : Step Result}
    (withNext : Forgets erase present present' tokens)
    (without : Forgets erase absent absent' tokens) :
    Forgets erase (peek kind present absent) (peek kind present' absent')
      tokens := by
  have next_eq : nextKind? (tokens.map Token.eraseSpan) =
      nextKind? tokens := by
    cases tokens <;> rfl
  unfold Forgets Step.peek
  rw [next_eq]
  split
  · exact withNext
  · exact without

end Forgets
end Step

open Step (Forgets)

theorem nameOf_eraseSpan (token : Token) :
    nameOf token.eraseSpan =
      ((nameOf token).map Name.eraseSpan).mapError SyntaxError.eraseSpan := by
  unfold nameOf Token.eraseSpan
  split <;> rfl

theorem grow_unknown (height : Nat) (place : Span) :
    grow height .unknown =
      ((grow height place).map id).mapError SyntaxError.eraseSpan := by
  unfold grow
  split <;> rfl

/-- A rule that does not look at places. -/
def Placeless (rule : Rule) : Prop :=
  ∀ tokens, Forgets Measured.eraseSpans (step rule) (step rule) tokens

theorem forgets_chainStep {operator? : TokenKind → Option Operator}
    {operand : Rule} (placeless : Placeless operand) (left : Measured)
    (tokens : List Token) :
    Forgets Measured.eraseSpans (chainStep operator? operand left)
      (chainStep operator? operand left.eraseSpans) tokens := by
  induction size : tokens.length using Nat.strongRecOn
    generalizing left tokens with
  | _ length induction =>
  rw [chainStep_eq, chainStep_eq]
  refine .branch (.pure left) fun operator sign rest tokens_eq => ?_
  refine .bind (placeless rest) fun right rest' read => ?_
  refine .lift_bind (grow_unknown _ _) fun height => ?_
  have shorter : rest'.length < length := by
    have := rest_lt_of_step read
    rw [← size, tokens_eq, List.length_cons]
    omega
  exact induction _ shorter
    ⟨.binary operator left.expression right.expression, height⟩ rest' rfl

theorem placeless_chain (operator? : TokenKind → Option Operator)
    {operand : Rule} (placeless : Placeless operand) :
    Placeless (chain operator? operand) := by
  intro tokens
  rw [step_chain]
  exact .bind (placeless tokens) fun left rest _ =>
    forgets_chainStep placeless left rest

theorem placeless_comparison {factorRule : Rule}
    (placeless : Placeless factorRule) : Placeless (comparison factorRule) :=
  placeless_chain _ (placeless_chain _ (placeless_chain _ placeless))

section Rules

variable {assignRule factorRule : Rule} (assignPlaceless : Placeless assignRule)
  (factorPlaceless : Placeless factorRule)
include assignPlaceless

theorem forgets_conditionalStep (test : Measured) (tokens : List Token) :
    Forgets Measured.eraseSpans (conditionalStep assignRule test)
      (conditionalStep assignRule test.eraseSpans) tokens := by
  induction size : tokens.length using Nat.strongRecOn
    generalizing test tokens with
  | _ length induction =>
  rw [conditionalStep_eq, conditionalStep_eq]
  refine .branch (.pure test) fun _ question rest tokens_eq => ?_
  refine .bind (assignPlaceless rest) fun onTrue afterTrue readTrue => ?_
  refine .bind (.expect _ _) fun colon afterColon readColon => ?_
  refine .bind (assignPlaceless afterColon) fun onFalse rest' readFalse => ?_
  have span_eq : onFalse.eraseSpans.expression.span = .unknown :=
    Expr.span_eraseSpans _
  rw [span_eq]
  refine .lift_bind (grow_unknown _ _) fun height => ?_
  have shorter : rest'.length < length := by
    have := rest_lt_of_step readTrue
    have := Step.rest_lt_of_expect readColon
    have := rest_lt_of_step readFalse
    rw [← size, tokens_eq, List.length_cons]
    omega
  exact induction _ shorter ⟨.conditional test.expression onTrue.expression
    onFalse.expression, height⟩ rest' rfl

omit assignPlaceless in
theorem admitArgument_eraseSpans (callee : Name) (before : MeasuredAll) :
    admitArgument callee.eraseSpan before.eraseSpans =
      ((admitArgument callee before).map id).mapError
        SyntaxError.eraseSpan := by
  simp only [admitArgument, MeasuredAll.eraseSpans, List.length_map]
  split <;> rfl

theorem forgets_argumentsStep (callee : Name) (before : MeasuredAll)
    (tokens : List Token) :
    Forgets MeasuredAll.eraseSpans (argumentsStep assignRule callee before)
      (argumentsStep assignRule callee.eraseSpan before.eraseSpans) tokens := by
  induction size : tokens.length using Nat.strongRecOn
    generalizing before tokens with
  | _ length induction =>
  rw [argumentsStep_eq, argumentsStep_eq]
  refine .lift_bind (admitArgument_eraseSpans callee before) fun _ => ?_
  refine .bind (assignPlaceless tokens) fun next afterNext read => ?_
  let longer : MeasuredAll := ⟨before.expressions ++ [next.expression],
    max before.height next.height⟩
  have longer_eq : longer.eraseSpans =
      ⟨before.eraseSpans.expressions ++ [next.eraseSpans.expression],
        max before.eraseSpans.height next.eraseSpans.height⟩ := by
    simp only [longer, MeasuredAll.eraseSpans, Measured.eraseSpans,
      List.map_append, List.map_cons, List.map_nil]
  simp only [← longer_eq]
  refine .branch (.pure longer) fun _ comma rest tokens_eq => ?_
  have shorter : rest.length < length := by
    have := rest_lt_of_step read
    rw [tokens_eq, List.length_cons] at this
    omega
  exact induction _ shorter longer rest rfl

theorem placeless_call (callee : Name) (tokens : List Token) :
    Forgets Measured.eraseSpans (step (call assignRule callee))
      (step (call assignRule callee.eraseSpan)) tokens := by
  rw [step_call, step_call]
  refine .bind (.peek _ (.pure _)
    (forgets_argumentsStep assignPlaceless callee ⟨[], 0⟩ tokens))
    fun given afterGiven _ => ?_
  refine .bind (.expect _ _) fun close rest _ => ?_
  refine .lift_bind (grow_unknown _ _) fun height => ?_
  let whole : Measured := ⟨.call callee given.expressions close.span, height⟩
  have whole_eq : whole.eraseSpans =
      ⟨.call callee.eraseSpan given.eraseSpans.expressions .unknown,
        height⟩ := by
    simp only [whole, Measured.eraseSpans, Expr.eraseSpans,
      Expr.eraseAllSpans_eq_map]
    rfl
  exact whole_eq ▸ .pure whole

include factorPlaceless

theorem placeless_conditional :
    Placeless (conditional assignRule factorRule) := by
  intro tokens
  rw [step_conditional]
  exact .bind (placeless_comparison factorPlaceless tokens) fun test rest _ =>
    forgets_conditionalStep assignPlaceless test rest

omit assignPlaceless factorPlaceless in
theorem store_eraseSpans (target value : Measured) :
    store target.eraseSpans value.eraseSpans =
      ((store target value).map Measured.eraseSpans).mapError
        SyntaxError.eraseSpan := by
  obtain ⟨targetExpression, targetHeight⟩ := target
  have span_eq := Expr.span_eraseSpans targetExpression
  have text_eq := Expr.infixText_eraseSpans targetExpression
  unfold store Measured.eraseSpans
  cases targetExpression with
  | var name =>
      simp only [Expr.eraseSpans, Expr.span_eraseSpans,
        grow_unknown _ value.expression.span]
      cases grow (max targetHeight value.height) value.expression.span <;> rfl
  | _ =>
      simp only [Expr.eraseSpans] at span_eq text_eq ⊢
      simp only [span_eq, text_eq]
      rfl

theorem placeless_assignment :
    Placeless (assignment assignRule factorRule) := by
  intro tokens
  rw [step_assignment]
  refine .bind (placeless_conditional assignPlaceless factorPlaceless tokens)
    fun target afterTarget _ => ?_
  refine .branch (.pure target) fun _ sign rest _ => ?_
  refine .bind (assignPlaceless rest) fun value rest' _ => ?_
  exact .lift (store_eraseSpans target value)

theorem forgets_operandStep (token : Token) (rest : List Token) :
    Forgets Measured.eraseSpans (operandStep assignRule factorRule token)
      (operandStep assignRule factorRule token.eraseSpan) rest := by
  have kind_eq : token.eraseSpan.kind = token.kind := rfl
  unfold operandStep
  rw [kind_eq]
  cases token.kind with
  | number => exact .pure _
  | leftParenthesis =>
      refine .bind (assignPlaceless rest) fun inner afterInner _ => ?_
      exact .bind (.expect _ _) fun _ _ _ => .pure inner
  | minus =>
      refine .bind (placeless_chain _ factorPlaceless rest)
        fun operand afterOperand _ => ?_
      refine .lift_bind (grow_unknown _ _) fun height => ?_
      exact .pure _
  | name =>
      refine .lift_bind (nameOf_eraseSpan token) fun name => ?_
      exact .branch (.pure _) fun _ _ afterOpening _ =>
        placeless_call assignPlaceless name afterOpening
  | _ => rfl

theorem placeless_primary : Placeless (primary assignRule factorRule) := by
  intro tokens
  cases tokens with
  | nil => rfl
  | cons token rest =>
      simp only [Forgets, List.map_cons, step_primary]
      exact forgets_operandStep assignPlaceless factorPlaceless token rest

end Rules

theorem placeless_exhausted : Placeless exhausted := by
  intro tokens
  cases tokens <;> rfl

mutual

theorem placeless_assign (room : Nat) : Placeless (assign room) := by
  cases room with
  | zero =>
      rw [assign]
      exact placeless_exhausted
  | succ room =>
      rw [assign]
      exact placeless_assignment (placeless_assign room) (placeless_factor room)

theorem placeless_factor (room : Nat) : Placeless (factor room) := by
  cases room with
  | zero =>
      rw [factor]
      exact placeless_exhausted
  | succ room =>
      rw [factor]
      exact placeless_primary (placeless_assign room) (placeless_factor room)

end

/-! ### Requests -/

theorem Step.Forgets.name (wanted : String) (tokens : List Token) :
    Forgets Name.eraseSpan (Step.name wanted) (Step.name wanted) tokens :=
  .bind (.expect _ _) fun token _ _ => .lift (nameOf_eraseSpan token)

theorem admitParameter_eraseSpans (function : Name) (before : List Name)
    (parameter : Name) :
    admitParameter function.eraseSpan (before.map Name.eraseSpan)
        parameter.eraseSpan =
      ((admitParameter function before parameter).map
        (List.map Name.eraseSpan)).mapError SyntaxError.eraseSpan := by
  have any_eq : (before.map Name.eraseSpan).any
      (·.text = parameter.eraseSpan.text) =
        before.any (·.text = parameter.text) := by
    rw [List.any_map]
    rfl
  unfold admitParameter
  rw [any_eq, List.length_map]
  split
  · rfl
  · split
    · rfl
    · show Except.ok _ = Except.ok _
      rw [List.map_append]
      rfl

theorem forgets_parametersStep (function : Name) (before : List Name)
    (tokens : List Token) :
    Forgets (List.map Name.eraseSpan) (parametersStep function before)
      (parametersStep function.eraseSpan (before.map Name.eraseSpan))
      tokens := by
  induction size : tokens.length using Nat.strongRecOn
    generalizing before tokens with
  | _ length induction =>
  rw [parametersStep_eq, parametersStep_eq]
  refine .bind (.name _ _) fun parameter afterName read => ?_
  refine .lift_bind (admitParameter_eraseSpans function before parameter)
    fun longer => ?_
  refine .branch (.pure longer) fun _ comma rest tokens_eq => ?_
  have shorter : rest.length < length := by
    have := Step.rest_lt_of_name read
    rw [tokens_eq, List.length_cons] at this
    omega
  exact induction _ shorter longer rest rfl

theorem forgets_definitionStep (tokens : List Token) :
    Forgets FunctionDefinition.eraseSpans definitionStep definitionStep
      tokens := by
  refine .bind (.name _ _) fun function afterName _ => ?_
  refine .bind (.expect _ _) fun _ afterOpening _ => ?_
  refine .bind (.peek _ (.pure [])
    (forgets_parametersStep function [] afterOpening)) fun names _ _ => ?_
  refine .bind (.expect _ _) fun _ _ _ => ?_
  refine .bind (.expect _ _) fun _ afterSign _ => ?_
  refine .bind (placeless_assign maximumNesting afterSign) fun body _ _ => ?_
  exact .pure _

theorem forgets_statementStep (tokens : List Token) :
    Forgets Statement.eraseSpans statementStep statementStep tokens := by
  cases tokens with
  | nil => rfl
  | cons token rest =>
      have keyword_eq : token.eraseSpan.isDefinitionKeyword =
        token.isDefinitionKeyword := rfl
      simp only [Forgets, List.map_cons, statementStep, keyword_eq]
      split
      · exact Forgets.bind (forgets_definitionStep rest) fun _ _ _ => .pure _
      · exact Forgets.bind (placeless_assign maximumNesting (token :: rest))
          fun _ _ _ => .pure _

theorem forgets_finish (tokens : List Token) :
    Forgets id finish finish tokens := by
  cases tokens <;> rfl

theorem forgets_requestStep (tokens : List Token) :
    Forgets Statement.eraseSpans requestStep requestStep tokens := by
  refine .bind (forgets_statementStep tokens) fun statement rest _ => ?_
  exact .bind (forgets_finish rest) fun _ _ _ => .pure statement

end Grammar

/-- Tokens without places are read as the same statement without places. -/
theorem Statement.parse_eraseSpan (tokens : List Token) :
    Statement.parse (tokens.map Token.eraseSpan) =
      ((Statement.parse tokens).map Statement.eraseSpans).mapError
        SyntaxError.eraseSpan := by
  rw [parse_eq, parse_eq, Grammar.forgets_requestStep tokens]
  cases Grammar.requestStep tokens <;> rfl

end Calculator
