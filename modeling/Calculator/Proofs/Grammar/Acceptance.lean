import Calculator.Proofs.Grammar.Phrases
import Calculator.Proofs.Grammar.Steps

/-!
# No token of a sentence is misplaced

What has the form of a sentence may still be refused, but only for what it
assigns to, for its parameters, or for a limit.  A rule that meets a greedy
phrase takes all of it and leaves the tokens after it alone, unless it fails for
one of those reasons.
-/

namespace Calculator

/-- The errors that say that a token cannot stand where it does, or that one is
missing. -/
def SyntaxError.isMisplaced : SyntaxError → Bool
  | .expected .. | .unexpectedEnd _ | .unexpectedToken .. | .reservedWord .. =>
    true
  | _ => false

/-- How loosely a token of this kind goes on with what stands before it: a call
is the tightest, then come the operators from products to comparisons, and last
conditionals and assignments.  The other tokens continue no phrase. -/
def TokenKind.looseness : TokenKind → Nat
  | .leftParenthesis => 0
  | .star | .slash | .percent => 1
  | .plus | .minus => 2
  | .less | .greater | .equalEqual | .notEqual | .lessEqual | .greaterEqual => 3
  | .question | .equal => 4
  | _ => 5

namespace Grammar

/-- The loosest tokens that continue a phrase of the category. -/
def Category.looseness : Category → Nat
  | .factor => 0
  | .chain .product => 1
  | .chain .sum => 2
  | .chain .comparison => 3
  | .conditional | .assign => 4

/-- The next token does not go on with a phrase of the category. -/
def Category.Stops (category : Category) (rest : List Token) : Prop :=
  ∀ kind, nextKind? rest = some kind → category.looseness < kind.looseness

theorem looseness_of_operator? {level : Level} {kind : TokenKind}
    {operator : Operator} (found : level.operator? kind = some operator) :
    kind.looseness = (Category.chain level).looseness := by
  cases level <;> cases kind <;> first | rfl | cases found

theorem looseness_operand_lt (level : Level) :
    level.operand.looseness < (Category.chain level).looseness := by
  cases level <;> decide

namespace Category.Stops

theorem nil (category : Category) : category.Stops [] := by
  intro kind next
  cases next

theorem cons {category : Category} {token : Token}
    (looser : category.looseness < token.kind.looseness) (rest : List Token) :
    category.Stops (token :: rest) := by
  intro kind next
  cases next
  exact looser

theorem of_le {category other : Category} {rest : List Token}
    (stops : category.Stops rest)
    (le : other.looseness ≤ category.looseness) : other.Stops rest :=
  fun kind next => Nat.lt_of_le_of_lt le (stops kind next)

theorem operand {level : Level} {rest : List Token}
    (stops : (Category.chain level).Stops rest) : level.operand.Stops rest :=
  stops.of_le (Nat.le_of_lt (looseness_operand_lt level))

theorem operator?_eq_none {level : Level} {rest : List Token}
    (stops : (Category.chain level).Stops rest) {token : Token}
    {later : List Token} (rest_eq : rest = token :: later) :
    level.operator? token.kind = none := by
  cases found : level.operator? token.kind with
  | none => rfl
  | some operator =>
      have looser := stops token.kind (by rw [rest_eq, nextKind?_cons])
      have same := looseness_of_operator? found
      omega

theorem nextKind?_ne {category : Category} {rest : List Token}
    (stops : category.Stops rest) {kind : TokenKind}
    (continues : kind.looseness ≤ category.looseness) :
    nextKind? rest ≠ some kind := by
  intro next
  have := stops kind next
  omega

end Category.Stops

namespace Step

variable {Result Result' Choice : Type}

/-- The step takes the tokens up to `rest`, unless it fails for another reason
than a misplaced token. -/
def Passes (step : Step Result) (tokens rest : List Token) : Prop :=
  (∃ result, step tokens = .ok (result, rest)) ∨
    ∃ error, step tokens = .error error ∧ error.isMisplaced = false

/-- A computation that does not complain about a misplaced token. -/
def Lenient (outcome : Except SyntaxError Result) : Prop :=
  ∀ error, outcome = .error error → error.isMisplaced = false

namespace Passes

variable {step : Step Result} {tokens middle rest : List Token}

theorem pure (result : Result) :
    Passes (pure result : Step Result) tokens tokens :=
  .inl ⟨result, rfl⟩

theorem bind {next : Result → Step Result'}
    (first : Passes step tokens middle)
    (later : ∀ result, Passes (next result) middle rest) :
    Passes (step >>= next) tokens rest := by
  unfold Passes
  rw [bind_apply]
  rcases first with ⟨result, taken⟩ | ⟨error, failed, lenient⟩
  · rw [taken]
    exact later result
  · rw [failed]
    exact .inr ⟨error, rfl, lenient⟩

theorem lift {outcome : Except SyntaxError Result} (lenient : Lenient outcome) :
    Passes (lift outcome) tokens tokens := by
  cases outcome with
  | error error => exact .inr ⟨error, rfl, lenient error rfl⟩
  | ok result => exact .inl ⟨result, rfl⟩

theorem expect {kind : TokenKind} {token : Token} (same : token.kind = kind)
    (wanted : String) (rest : List Token) :
    Passes (expect kind wanted) (token :: rest) rest := by
  refine .inl ⟨token, ?_⟩
  rw [expect_cons, if_pos same]

theorem branch_absent {choice? : TokenKind → Option Choice}
    {absent : Step Result} {present : Choice → Token → Step Result}
    (none_eq : ∀ token later, tokens = token :: later →
      choice? token.kind = none)
    (passes : Passes absent tokens rest) :
    Passes (branch choice? absent present) tokens rest := by
  cases tokens with
  | nil => exact passes
  | cons token later =>
      unfold Passes Step.branch
      simp only [none_eq token later rfl]
      exact passes

theorem branch_present {choice? : TokenKind → Option Choice}
    {absent : Step Result} {present : Choice → Token → Step Result}
    {token : Token} {choice : Choice}
    (some_eq : choice? token.kind = some choice)
    (passes : Passes (present choice token) tokens rest) :
    Passes (branch choice? absent present) (token :: tokens) rest := by
  unfold Passes Step.branch
  simp only [some_eq]
  exact passes

theorem branch_only_absent {kind : TokenKind} {absent : Step Result}
    {present : Unit → Token → Step Result} (ends : nextKind? tokens ≠ some kind)
    (passes : Passes absent tokens rest) :
    Passes (branch (only kind) absent present) tokens rest := by
  refine branch_absent (fun token later tokens_eq => ?_) passes
  rw [tokens_eq, nextKind?_cons, ne_eq, Option.some.injEq] at ends
  exact if_neg ends

theorem branch_only_present {kind : TokenKind} {absent : Step Result}
    {present : Unit → Token → Step Result} {token : Token}
    (same : token.kind = kind)
    (passes : Passes (present () token) tokens rest) :
    Passes (branch (only kind) absent present) (token :: tokens) rest :=
  branch_present (if_pos same) passes

theorem peek_present {kind : TokenKind} {present absent : Step Result}
    (next : nextKind? tokens = some kind)
    (passes : Passes present tokens rest) :
    Passes (peek kind present absent) tokens rest := by
  unfold Passes Step.peek
  rw [if_pos next]
  exact passes

theorem peek_absent {kind : TokenKind} {present absent : Step Result}
    (next : nextKind? tokens ≠ some kind) (passes : Passes absent tokens rest) :
    Passes (peek kind present absent) tokens rest := by
  unfold Passes Step.peek
  rw [if_neg next]
  exact passes

end Passes
end Step

open Step (Passes Lenient)

theorem lenient_grow (height : Nat) (place : Span) :
    Lenient (grow height place) := by
  intro error failed
  unfold grow at failed
  split at failed <;> cases failed
  rfl

theorem lenient_store (target value : Measured) :
    Lenient (store target value) := by
  intro error failed
  unfold store at failed
  split at failed
  · cases grown : grow (max target.height value.height)
      value.expression.span with
    | error other =>
        rw [grown] at failed
        cases failed
        exact lenient_grow _ _ error grown
    | ok height =>
        rw [grown] at failed
        cases failed
  · cases failed
    rfl

theorem lenient_admitArgument (callee : Name) (before : MeasuredAll) :
    Lenient (admitArgument callee before) := by
  intro error failed
  unfold admitArgument at failed
  split at failed <;> cases failed
  rfl

theorem lenient_admitParameter (function : Name) (before : List Name)
    (parameter : Name) :
    Lenient (admitParameter function before parameter) := by
  intro error failed
  unfold admitParameter at failed
  split at failed
  · cases failed
    rfl
  · split at failed <;> cases failed
    rfl

/-! ### Phrases that are passed -/

/-- The rule between whose operands the operators of a level stand. -/
def Level.operandRule (level : Level) (factorRule : Rule) : Rule :=
  match level with
  | .product => factorRule
  | .sum => Grammar.product factorRule
  | .comparison => Grammar.sum factorRule

/-- The rule of a level. -/
def Level.rule (level : Level) (factorRule : Rule) : Rule :=
  chain level.operator? (level.operandRule factorRule)

/-- What it means that the rule of a category passes tokens.  A chain is said to
consist of a first operand and what comes after it, so that it may also go on
with an earlier operand. -/
def Category.Passed : Category → List Token → Prop
  | .factor, tokens => ∀ room rest, Category.factor.Stops rest →
      Passes (step (Grammar.factor room)) (tokens ++ rest) rest
  | .chain level, tokens => ∀ room rest, (Category.chain level).Stops rest →
      ∃ middle,
        Passes (step (level.operandRule (Grammar.factor room))) (tokens ++ rest)
          middle ∧
        ∀ left, Passes (chainStep level.operator?
          (level.operandRule (Grammar.factor room)) left) middle rest
  | .conditional, _ => True
  | .assign, tokens => ∀ room rest, Category.assign.Stops rest →
      Passes (step (Grammar.assign room)) (tokens ++ rest) rest

theorem passes_exhausted (tokens rest : List Token) :
    Passes (step exhausted) tokens rest :=
  .inr ⟨_, rfl, rfl⟩

theorem passes_chainStep_of_stops {level : Level} {operand : Rule}
    {rest : List Token} (stops : (Category.chain level).Stops rest)
    (left : Measured) :
    Passes (chainStep level.operator? operand left) rest rest := by
  rw [chainStep_eq]
  exact .branch_absent (fun _ _ rest_eq => stops.operator?_eq_none rest_eq)
    (.pure left)

theorem Category.Passed.rule {level : Level} {tokens rest : List Token}
    (passed : (Category.chain level).Passed tokens) (room : Nat)
    (stops : (Category.chain level).Stops rest) :
    Passes (step (level.rule (Grammar.factor room))) (tokens ++ rest) rest := by
  obtain ⟨middle, first, later⟩ := passed room rest stops
  rw [Level.rule, step_chain]
  exact first.bind later

/-- What is between operators passes the rule for operands. -/
theorem Category.Passed.operandRule {level : Level} {tokens rest : List Token}
    (passed : level.operand.Passed tokens) (room : Nat)
    (stops : level.operand.Stops rest) :
    Passes (step (level.operandRule (Grammar.factor room))) (tokens ++ rest)
      rest := by
  cases level with
  | product => exact passed room rest stops
  | sum => exact Category.Passed.rule passed room stops
  | comparison => exact Category.Passed.rule passed room stops

theorem passed_operand {level : Level} {tokens : List Token}
    (only : level.operand.Passed tokens) :
    (Category.chain level).Passed tokens := by
  intro room rest stops
  exact ⟨rest, only.operandRule room stops.operand,
    passes_chainStep_of_stops stops⟩

theorem passed_operation {level : Level} {left right : List Token}
    {sign : Token} {operator : Operator} (first : level.operand.Passed left)
    (isOperator : (sign.kind, operator) ∈ level.operators)
    (later : (Category.chain level).Passed right) :
    (Category.chain level).Passed (left ++ sign :: right) := by
  intro room rest stops
  obtain ⟨middle, operand, goesOn⟩ := later room rest stops
  have found := Level.operator?_eq_some_iff.mpr isOperator
  have looser : level.operand.looseness < sign.kind.looseness := by
    rw [looseness_of_operator? found]
    exact looseness_operand_lt level
  refine ⟨sign :: (right ++ rest), ?_, fun leftMeasured => ?_⟩
  · rw [List.append_assoc, List.cons_append]
    exact first.operandRule room (.cons looser _)
  · rw [chainStep_eq]
    refine .branch_present found (operand.bind fun rightMeasured => ?_)
    exact Passes.bind (.lift (lenient_grow _ _)) fun height => goesOn _

/-- What comes after its first token decides whether a factor is passed. -/
theorem passes_factor {token : Token} {tokens rest : List Token}
    (passes : ∀ room,
      Passes (operandStep (assign room) (factor room) token) tokens rest)
    (room : Nat) : Passes (step (factor room)) (token :: tokens) rest := by
  cases room with
  | zero =>
      rw [factor]
      exact passes_exhausted _ _
  | succ room =>
      have passed := passes room
      unfold Passes at passed ⊢
      rw [factor, step_primary]
      exact passed

theorem passed_negation {sign : Token} {operand : List Token}
    (isMinus : sign.kind = .minus)
    (product : (Category.chain .product).Passed operand) :
    (Category.chain .product).Passed (sign :: operand) := by
  intro room rest stops
  refine ⟨rest, passes_factor (fun room => ?_) room,
    passes_chainStep_of_stops stops⟩
  simp only [operandStep, isMinus]
  refine Passes.bind (product.rule room stops) fun operand => ?_
  exact Passes.bind (.lift (lenient_grow _ _)) fun height => .pure _

theorem passed_factor {token : Token} {tokens : List Token}
    (passes : ∀ room rest, Category.factor.Stops rest →
      Passes (operandStep (assign room) (factor room) token) (tokens ++ rest)
        rest) :
    Category.factor.Passed (token :: tokens) := by
  intro room rest stops
  rw [List.cons_append]
  exact passes_factor (fun room => passes room rest stops) room

theorem passed_number {token : Token} (isNumber : token.kind = .number) :
    Category.factor.Passed [token] := by
  refine passed_factor fun room rest _ => ?_
  simp only [operandStep, isNumber]
  exact .pure _

theorem lenient_nameOf {token : Token} (isName : IsName token) :
    Lenient (nameOf token) := by
  intro error failed
  rw [nameOf_of_isName isName] at failed
  cases failed

theorem passed_name {token : Token} (isName : IsName token) :
    Category.factor.Passed [token] := by
  refine passed_factor fun room rest stops => ?_
  simp only [operandStep, isName.kind, List.nil_append]
  refine Passes.bind (.lift (lenient_nameOf isName)) fun name => ?_
  exact .branch_only_absent (stops.nextKind?_ne (by decide)) (.pure _)

/-- What closes or separates phrases stops them all. -/
theorem stops_mark (category : Category) {token : Token} (rest : List Token)
    (mark : token.kind.looseness = 5) : category.Stops (token :: rest) := by
  refine .cons ?_ rest
  rw [mark]
  cases category with
  | chain level => cases level <;> decide
  | _ => decide

theorem passed_parentheses {opening closing : Token} {inside : List Token}
    (opens : opening.kind = .leftParenthesis)
    (inner : Category.assign.Passed inside)
    (closes : closing.kind = .rightParenthesis) :
    Category.factor.Passed (opening :: (inside ++ [closing])) := by
  refine passed_factor fun room rest _ => ?_
  simp only [operandStep, opens, List.append_assoc, List.singleton_append]
  have stops : Category.assign.Stops (closing :: rest) :=
    stops_mark _ _ (by rw [closes]; rfl)
  refine Passes.bind (inner room _ stops) fun measured => ?_
  exact Passes.bind (.expect closes _ _) fun _ => .pure _

/-! ### Calls -/

/-- What it means that the arguments of a call are passed. -/
def PassedArguments (tokens : List Token) : Prop :=
  ∀ room callee before rest, Category.assign.Stops rest →
    nextKind? rest ≠ some .comma →
      Passes (argumentsStep (assign room) callee before) (tokens ++ rest) rest

theorem passed_last {tokens : List Token}
    (argument : Category.assign.Passed tokens) : PassedArguments tokens := by
  intro room callee before rest stops noComma
  rw [argumentsStep_eq]
  refine Passes.bind (.lift (lenient_admitArgument _ _)) fun _ => ?_
  refine Passes.bind (argument room rest stops) fun next => ?_
  exact .branch_only_absent noComma (.pure _)

theorem passed_more {tokens later : List Token} {comma : Token}
    (argument : Category.assign.Passed tokens) (separates : comma.kind = .comma)
    (others : PassedArguments later) :
    PassedArguments (tokens ++ comma :: later) := by
  intro room callee before rest stops noComma
  have stopsAtComma : Category.assign.Stops (comma :: (later ++ rest)) :=
    stops_mark _ _ (by rw [separates]; rfl)
  rw [argumentsStep_eq, List.append_assoc, List.cons_append]
  refine Passes.bind (.lift (lenient_admitArgument _ _)) fun _ => ?_
  refine Passes.bind (argument room _ stopsAtComma) fun next => ?_
  exact .branch_only_present separates
    (others room callee _ rest stops noComma)

/-- A call is passed if what stands between its parentheses is. -/
theorem passed_call_of {callee opening closing : Token} {given : List Token}
    (isName : IsName callee) (opens : opening.kind = .leftParenthesis)
    (closes : closing.kind = .rightParenthesis)
    (arguments : ∀ room name rest, Passes
      (Step.peek .rightParenthesis (pure ⟨[], 0⟩)
        (argumentsStep (assign room) name ⟨[], 0⟩))
      (given ++ closing :: rest) (closing :: rest)) :
    Category.factor.Passed (callee :: opening :: (given ++ [closing])) := by
  refine passed_factor fun room rest _ => ?_
  simp only [operandStep, isName.kind, List.cons_append, List.append_assoc,
    List.nil_append]
  refine Passes.bind (.lift (lenient_nameOf isName)) fun name => ?_
  refine .branch_only_present opens ?_
  rw [step_call]
  refine Passes.bind (arguments room name rest) fun given => ?_
  refine Passes.bind (.expect closes _ _) fun close => ?_
  exact Passes.bind (.lift (lenient_grow _ _)) fun height => .pure _

theorem passed_emptyCall {callee opening closing : Token}
    (isName : IsName callee) (opens : opening.kind = .leftParenthesis)
    (closes : closing.kind = .rightParenthesis) :
    Category.factor.Passed [callee, opening, closing] := by
  show Category.factor.Passed (callee :: opening :: ([] ++ [closing]))
  refine passed_call_of isName opens closes fun room name rest => ?_
  exact .peek_present (by rw [List.nil_append, nextKind?_cons, closes])
    (.pure _)

theorem passed_call {callee opening closing : Token} {given : List Token}
    (isName : IsName callee) (opens : opening.kind = .leftParenthesis)
    (begins : ∀ rest, BeginsExpression (given ++ rest))
    (arguments : PassedArguments given)
    (closes : closing.kind = .rightParenthesis) :
    Category.factor.Passed (callee :: opening :: (given ++ [closing])) := by
  refine passed_call_of isName opens closes fun room name rest => ?_
  refine .peek_absent (begins _).nextKind?_ne ?_
  refine arguments room name _ _ (stops_mark _ _ (by rw [closes]; rfl)) ?_
  simp [closes]

/-! ### Assignments -/

theorem passes_conditionalStep_of_ends {branch : Rule} {rest : List Token}
    (ends : nextKind? rest ≠ some .question) (test : Measured) :
    Passes (conditionalStep branch test) rest rest := by
  rw [conditionalStep_eq]
  exact .branch_only_absent ends (.pure test)

theorem passes_assign {tokens rest : List Token}
    (passes : ∀ room, Passes (step (assignment (assign room) (factor room)))
      tokens rest) (room : Nat) : Passes (step (assign room)) tokens rest := by
  cases room with
  | zero =>
      rw [assign]
      exact passes_exhausted _ _
  | succ room =>
      rw [assign]
      exact passes room

/-- A comparison that no question follows is a whole conditional. -/
theorem Category.Passed.conditional {tokens rest : List Token}
    (passed : (Category.chain .comparison).Passed tokens) (room : Nat)
    (stops : (Category.chain .comparison).Stops rest)
    (ends : nextKind? rest ≠ some .question) :
    Passes (step (Grammar.conditional (Grammar.assign room)
      (Grammar.factor room))) (tokens ++ rest) rest := by
  rw [step_conditional]
  exact Passes.bind (passed.rule room stops)
    (passes_conditionalStep_of_ends ends)

theorem passed_value {tokens : List Token}
    (only : (Category.chain .comparison).Passed tokens) :
    Category.assign.Passed tokens := by
  intro room rest stops
  refine passes_assign (fun room => ?_) room
  rw [step_assignment]
  have ends : nextKind? rest ≠ some .question :=
    stops.nextKind?_ne (Nat.le_refl _)
  refine Passes.bind (only.conditional room (stops.of_le (by decide)) ends)
    fun target => ?_
  exact .branch_only_absent (stops.nextKind?_ne (Nat.le_refl _)) (.pure target)

theorem passed_branches {test onTrue onFalse : List Token}
    {question colon : Token} (tested : (Category.chain .comparison).Passed test)
    (asks : question.kind = .question)
    (whenTrue : Category.assign.Passed onTrue)
    (separates : colon.kind = .colon)
    (whenFalse : Category.assign.Passed onFalse) :
    Category.assign.Passed
      (test ++ question :: (onTrue ++ colon :: onFalse)) := by
  intro room rest stops
  refine passes_assign (fun room => ?_) room
  simp only [List.append_assoc, List.cons_append]
  have stopsAtQuestion : (Category.chain .comparison).Stops
      (question :: (onTrue ++ colon :: (onFalse ++ rest))) :=
    .cons (by rw [asks]; decide) _
  have stopsAtColon : Category.assign.Stops (colon :: (onFalse ++ rest)) :=
    stops_mark _ _ (by rw [separates]; rfl)
  rw [step_assignment, step_conditional]
  have passesConditional (measured : Measured) :
      Passes (conditionalStep (assign room) measured)
        (question :: (onTrue ++ colon :: (onFalse ++ rest))) rest := by
    rw [conditionalStep_eq]
    refine .branch_only_present asks ?_
    refine Passes.bind (whenTrue room _ stopsAtColon) fun onTrue => ?_
    refine Passes.bind (.expect separates _ _) fun _ => ?_
    refine Passes.bind (whenFalse room rest stops) fun onFalse => ?_
    refine Passes.bind (.lift (lenient_grow _ _)) fun height => ?_
    exact passes_conditionalStep_of_ends
      (stops.nextKind?_ne (Nat.le_refl _)) _
  refine Passes.bind (.bind (tested.rule room stopsAtQuestion)
    passesConditional) fun target => ?_
  exact .branch_only_absent (stops.nextKind?_ne (Nat.le_refl _)) (.pure target)

theorem passed_store {target value : List Token} {sign : Token}
    (assigned : (Category.chain .comparison).Passed target)
    (isSign : sign.kind = .equal) (stored : Category.assign.Passed value) :
    Category.assign.Passed (target ++ sign :: value) := by
  intro room rest stops
  refine passes_assign (fun room => ?_) room
  rw [step_assignment, List.append_assoc, List.cons_append]
  have stopsAtSign : (Category.chain .comparison).Stops
      (sign :: (value ++ rest)) :=
    .cons (by rw [isSign]; decide) _
  refine Passes.bind (assigned.conditional room stopsAtSign (by simp [isSign]))
    fun measured => ?_
  refine .branch_only_present isSign ?_
  refine Passes.bind (stored room rest stops) fun value => ?_
  exact .lift (lenient_store _ _)

mutual

theorem Greedy.begins {category : Category} {tokens : List Token}
    (rest : List Token) :
    Greedy category tokens → BeginsExpression (tokens ++ rest)
  | .number isNumber => .number isNumber
  | .name isName | .emptyCall isName _ _ | .call isName _ _ _ => .name isName
  | .parentheses opens _ _ => .parenthesis opens
  | .negation isMinus _ => .minus isMinus
  | .operand only | .value only => only.begins rest
  | .operation first _ _ | .branches first _ _ _ _ | .store first _ _ => by
      rw [List.append_assoc]
      exact first.begins _

theorem GreedyArguments.begins {tokens : List Token} (rest : List Token) :
    GreedyArguments tokens → BeginsExpression (tokens ++ rest)
  | .last argument => argument.begins rest
  | .more argument _ _ => by
      rw [List.append_assoc]
      exact argument.begins _

end

mutual

/-- Greedy phrases are passed by the rule of their category. -/
theorem Greedy.passed {category : Category} {tokens : List Token} :
    Greedy category tokens → category.Passed tokens
  | .number isNumber => passed_number isNumber
  | .name isName => passed_name isName
  | .parentheses opens inner closes =>
      passed_parentheses opens inner.passed closes
  | .emptyCall isName opens closes => passed_emptyCall isName opens closes
  | .call isName opens arguments closes =>
      passed_call isName opens arguments.begins arguments.passed closes
  | .negation isMinus product => passed_negation isMinus product.passed
  | .operand only => passed_operand only.passed
  | .operation first isOperator later =>
      passed_operation first.passed isOperator later.passed
  | .value only => passed_value only.passed
  | .branches tested asks whenTrue separates whenFalse =>
      passed_branches tested.passed asks whenTrue.passed separates
        whenFalse.passed
  | .store assigned isSign stored =>
      passed_store assigned.passed isSign stored.passed

theorem GreedyArguments.passed {tokens : List Token} :
    GreedyArguments tokens → PassedArguments tokens
  | .last argument => passed_last argument.passed
  | .more argument separates rest =>
      passed_more argument.passed separates rest.passed

end

/-! ### Requests -/

theorem passes_name {token : Token} (isName : IsName token) (wanted : String)
    (rest : List Token) : Passes (Step.name wanted) (token :: rest) rest := by
  have named : Step.name wanted (token :: rest) = .ok (token.asName, rest) := by
    unfold Step.name
    rw [Step.bind_apply, Step.expect_cons, if_pos isName.kind, ok_bind]
    simp only [Step.lift, nameOf_of_isName isName]
    rfl
  exact .inl ⟨token.asName, named⟩

theorem passes_parametersStep {function : Name} {tokens : List Token}
    (listed : NameListPhrase tokens) (before : List Name) {rest : List Token}
    (noComma : nextKind? rest ≠ some .comma) :
    Passes (parametersStep function before) (tokens ++ rest) rest := by
  induction listed generalizing before with
  | last isName =>
      rw [parametersStep_eq]
      refine Passes.bind (passes_name isName _ _) fun parameter => ?_
      refine Passes.bind (.lift (lenient_admitParameter _ _ _)) fun longer => ?_
      exact .branch_only_absent noComma (.pure longer)
  | more isName separates _ induction =>
      rw [parametersStep_eq]
      refine Passes.bind (passes_name isName _ _) fun parameter => ?_
      refine Passes.bind (.lift (lenient_admitParameter _ _ _)) fun longer => ?_
      exact .branch_only_present separates (induction longer)

theorem passes_parameters {function : Name} {tokens : List Token}
    (declares : ParametersPhrase tokens) {closing : Token}
    (closes : closing.kind = .rightParenthesis) (rest : List Token) :
    Passes
      (Step.peek .rightParenthesis (pure []) (parametersStep function []))
      (tokens ++ closing :: rest) (closing :: rest) := by
  have next : nextKind? (closing :: rest) = some .rightParenthesis := by
    rw [nextKind?_cons, closes]
  cases declares with
  | none => exact .peek_present next (.pure [])
  | some listed =>
      refine .peek_absent ?_ (passes_parametersStep listed [] (by simp [next]))
      cases listed with
      | last isName => simp [isName.kind]
      | more isName => simp [isName.kind]

theorem Phrase.passes_expression {tokens : List Token}
    (phrase : Phrase .assign tokens) :
    Passes (step expression) tokens [] := by
  have passes := phrase.greedy.passed maximumNesting [] (.nil _)
  rw [List.append_nil] at passes
  exact passes

theorem Sentence.passes_statementStep {tokens : List Token} :
    Sentence tokens → Passes statementStep tokens []
  | .expression value => by
      have begins := value.greedy.begins []
      rw [List.append_nil] at begins
      cases tokens with
      | nil => cases begins
      | cons token rest =>
          unfold Passes
          simp only [statementStep, begins.head_not_keyword,
            Bool.false_eq_true, if_false]
          exact Passes.bind value.passes_expression fun _ => .pure _
  | .definition isKeyword isName opens declares closes isSign yields => by
      unfold Passes
      simp only [statementStep, isDefinitionKeyword_iff.mpr isKeyword, if_true]
      refine Passes.bind ?_ fun function => .pure _
      refine Passes.bind (passes_name isName _ _) fun name => ?_
      refine Passes.bind (.expect opens _ _) fun _ => ?_
      refine Passes.bind (passes_parameters declares closes _) fun names => ?_
      refine Passes.bind (.expect closes _ _) fun _ => ?_
      refine Passes.bind (.expect isSign _ _) fun _ => ?_
      exact Passes.bind yields.passes_expression fun body => .pure _

/-- No token of a sentence is misplaced. -/
theorem Sentence.passes {tokens : List Token} (sentence : Sentence tokens) :
    Passes requestStep tokens [] := by
  have finishes : Passes finish [] [] := .inl ⟨(), rfl⟩
  exact Passes.bind sentence.passes_statementStep fun statement =>
    Passes.bind finishes fun _ => .pure statement

end Grammar
end Calculator
