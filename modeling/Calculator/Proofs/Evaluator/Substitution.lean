import Calculator.Proofs.Evaluator.Bounds
import Calculator.Proofs.Grammar.Trees

/-!
# Substitution for parameters

Putting literals in the place of the variables of an expression has the same
effect as evaluating it where the variables have these values, if none of them
is assigned to.  The other variables of the two environments agree at every
moment, although only one of the environments binds the parameters.
-/

namespace Calculator

namespace Expr

variable (values : String → Option Int64)

mutual

/-- The expression with literals in the place of the variables that have a
value.  Targets of assignments are not read and stay as they are. -/
def substitute : Expr → Expr
  | .literal value span => .literal value span
  | .var name =>
    match values name.text with
    | some value => .literal value name.span
    | none => .var name
  | .binary operator left right =>
    .binary operator left.substitute right.substitute
  | .assign target value => .assign target value.substitute
  | .conditional test onTrue onFalse =>
    .conditional test.substitute onTrue.substitute onFalse.substitute
  | .call callee arguments close =>
    .call callee (substituteAll arguments) close

/-- The expressions with literals in the place of variables. -/
def substituteAll : List Expr → List Expr
  | [] => []
  | first :: rest => first.substitute :: substituteAll rest

end

/-- No variable that has a value is assigned to. -/
def Spares (expression : Expr) : Prop :=
  ∀ target value, .assign target value ∈ expression.nodes →
    values target.infixText = none

variable {values}

theorem spares_binary {operator : Operator} {left right : Expr} :
    (binary operator left right).Spares values ↔
      left.Spares values ∧ right.Spares values := by
  simp only [Spares, nodes, List.mem_cons, List.mem_append, reduceCtorEq,
    false_or, or_imp, forall_and]

theorem Spares.of_assign {target value : Expr}
    (spares : (assign target value).Spares values) :
    values target.infixText = none ∧ value.Spares values := by
  constructor
  · exact spares target value (by simp [nodes])
  · intro inner stored member
    exact spares inner stored (by simp [nodes, member])

theorem spares_conditional {test onTrue onFalse : Expr} :
    (conditional test onTrue onFalse).Spares values ↔
      test.Spares values ∧ onTrue.Spares values ∧ onFalse.Spares values := by
  simp only [Spares, nodes, List.mem_cons, List.mem_append, reduceCtorEq,
    false_or, or_imp, forall_and]

theorem Spares.of_call {callee : Name} {arguments : List Expr} {close : Span}
    (spares : (call callee arguments close).Spares values) :
    ∀ argument ∈ arguments, argument.Spares values := by
  intro argument given target value member
  apply spares target value
  simp only [nodes, List.mem_cons, mem_nodesOfAll]
  exact .inr ⟨argument, given, member⟩

end Expr

/-- The outcomes are the same value, or errors of the same kind. -/
def SameKind {Value : Type} (first second : Except RuntimeError Value) : Prop :=
  first.mapError RuntimeError.kind = second.mapError RuntimeError.kind

theorem SameKind.refl {Value : Type} (outcome : Except RuntimeError Value) :
    SameKind outcome outcome :=
  rfl

theorem SameKind.of_kind {Value : Type} {error other : RuntimeError}
    (same : error.kind = other.kind) :
    SameKind (.error error : Except RuntimeError Value) (.error other) :=
  congrArg Except.error same

theorem SameKind.eq_ok {Value : Type} {value : Value}
    {outcome : Except RuntimeError Value}
    (same : SameKind (.ok value) outcome) : outcome = .ok value := by
  cases outcome with
  | ok other =>
      have value_eq : value = other := Except.ok.inj same
      rw [value_eq]
  | error error =>
      have impossible : Except.ok value = Except.error error.kind := same
      cases impossible

theorem SameKind.eq_error {Value : Type} {error : RuntimeError}
    {outcome : Except RuntimeError Value}
    (same : SameKind (.error error) outcome) :
    ∃ other, outcome = .error other ∧ error.kind = other.kind := by
  cases outcome with
  | ok value =>
      have impossible : Except.error error.kind = Except.ok value := same
      cases impossible
  | error other => exact ⟨other, rfl, Except.error.inj same⟩

/-- The given values are those of the first environment, and the other variables
have equal values in both. -/
structure Stands (values : String → Option Int64) (first second : Environment) :
    Prop where
  given : ∀ name value, values name = some value → first.value name = value
  others : ∀ name, values name = none → first.value name = second.value name

namespace Stands

variable {values : String → Option Int64} {first second : Environment}

theorem touchFirst (stands : Stands values first second) (name : String) :
    Stands values (first.touch name) second := by
  constructor
  · intro other value isGiven
    rw [Environment.value_touch]
    exact stands.given other value isGiven
  · intro other isOther
    rw [Environment.value_touch]
    exact stands.others other isOther

theorem touch (stands : Stands values first second) (name : String) :
    Stands values (first.touch name) (second.touch name) := by
  constructor
  · exact (stands.touchFirst name).given
  · intro other isOther
    rw [Environment.value_touch second]
    exact (stands.touchFirst name).others other isOther

theorem assign (stands : Stands values first second) {name : String}
    (isOther : values name = none) (value : Int64) :
    Stands values (first.assign name value) (second.assign name value) := by
  constructor
  · intro other given isGiven
    have different : name ≠ other := by
      rintro rfl
      rw [isOther] at isGiven
      cases isGiven
    rw [Environment.value_assign, if_neg different]
    exact stands.given other given isGiven
  · intro other isOther'
    simp only [Environment.value_assign]
    rw [stands.others other isOther']

theorem bindAll (names : List String) (arguments : List Int64) :
    Stands (Environment.parameterValue? names arguments)
      (Environment.empty.bindAll names arguments) .empty := by
  constructor
  · intro name value isGiven
    simp only [Environment.value, Environment.find?_bindAll, isGiven,
      Option.some_or, Option.getD_some]
  · intro name isOther
    simp only [Environment.value, Environment.find?_bindAll, isOther,
      Option.none_or]

end Stands

variable {functions : FunctionTable} {values : String → Option Int64}

mutual

/-- The literals are evaluated as the variables are whose place they take. -/
theorem Evaluates.substitute {expression : Expr}
    {before after first : Environment}
    {outcome : Except RuntimeError Int64} {height bodies : Nat} :
    Evaluates functions expression before outcome after height bodies →
      expression.Spares values → Stands values before first →
        ∃ other later,
          Evaluates functions (expression.substitute values) first other later
            height bodies ∧
          SameKind outcome other ∧ Stands values after later
  | .literal, _, stands => ⟨_, _, .literal, .refl _, stands⟩
  | @Evaluates.var _ name _, _, stands => by
      unfold Expr.substitute
      cases value_eq : values name.text with
      | some value =>
          rw [stands.given name.text value value_eq]
          exact ⟨_, _, .literal, .refl _, stands.touchFirst name.text⟩
      | none =>
          rw [stands.others name.text value_eq]
          exact ⟨_, _, .var, .refl _, stands.touch name.text⟩
  | .leftFails fails, spares, stands => by
      have ⟨sparesLeft, _⟩ := Expr.spares_binary.mp spares
      obtain ⟨_, later, left, same, stands⟩ :=
        fails.substitute sparesLeft stands
      obtain ⟨error, rfl, _⟩ := same.eq_error
      exact ⟨_, _, .leftFails left, same, stands⟩
  | .rightFails evaluatesLeft fails, spares, stands => by
      have ⟨sparesLeft, sparesRight⟩ := Expr.spares_binary.mp spares
      obtain ⟨_, between, left, same, stands⟩ :=
        evaluatesLeft.substitute sparesLeft stands
      rw [same.eq_ok] at left
      obtain ⟨_, later, right, same, stands⟩ :=
        fails.substitute sparesRight stands
      obtain ⟨error, rfl, _⟩ := same.eq_error
      exact ⟨_, _, .rightFails left right, same, stands⟩
  | .operation evaluatesLeft evaluatesRight result_eq, spares, stands => by
      have ⟨sparesLeft, sparesRight⟩ := Expr.spares_binary.mp spares
      obtain ⟨_, between, left, same, stands⟩ :=
        evaluatesLeft.substitute sparesLeft stands
      rw [same.eq_ok] at left
      obtain ⟨_, later, right, same, stands⟩ :=
        evaluatesRight.substitute sparesRight stands
      rw [same.eq_ok] at right
      exact ⟨_, _, .operation left right result_eq, .refl _, stands⟩
  | .divisionByZero evaluatesLeft evaluatesRight result_eq, spares, stands => by
      have ⟨sparesLeft, sparesRight⟩ := Expr.spares_binary.mp spares
      obtain ⟨_, between, left, same, stands⟩ :=
        evaluatesLeft.substitute sparesLeft stands
      rw [same.eq_ok] at left
      obtain ⟨_, later, right, same, stands⟩ :=
        evaluatesRight.substitute sparesRight stands
      rw [same.eq_ok] at right
      exact ⟨_, _, .divisionByZero left right result_eq, .of_kind rfl, stands⟩
  | .storeFails fails, spares, stands => by
      have ⟨_, sparesValue⟩ := spares.of_assign
      obtain ⟨_, later, value, same, stands⟩ :=
        fails.substitute sparesValue stands
      obtain ⟨error, rfl, _⟩ := same.eq_error
      exact ⟨_, _, .storeFails value, same, stands⟩
  | .store evaluatesValue, spares, stands => by
      have ⟨isOther, sparesValue⟩ := spares.of_assign
      obtain ⟨_, later, value, same, stands⟩ :=
        evaluatesValue.substitute sparesValue stands
      rw [same.eq_ok] at value
      exact ⟨_, _, .store value, .refl _, stands.assign isOther _⟩
  | .testFails fails, spares, stands => by
      have ⟨sparesTest, _⟩ := Expr.spares_conditional.mp spares
      obtain ⟨_, later, test, same, stands⟩ :=
        fails.substitute sparesTest stands
      obtain ⟨error, rfl, _⟩ := same.eq_error
      exact ⟨_, _, .testFails test, same, stands⟩
  | .onTrue evaluatesTest nonzero branch, spares, stands => by
      have ⟨sparesTest, sparesTrue, _⟩ := Expr.spares_conditional.mp spares
      obtain ⟨_, between, test, same, stands⟩ :=
        evaluatesTest.substitute sparesTest stands
      rw [same.eq_ok] at test
      obtain ⟨_, later, chosen, same, stands⟩ :=
        branch.substitute sparesTrue stands
      exact ⟨_, _, .onTrue test nonzero chosen, same, stands⟩
  | .onFalse evaluatesTest branch, spares, stands => by
      have ⟨sparesTest, _, sparesFalse⟩ := Expr.spares_conditional.mp spares
      obtain ⟨_, between, test, same, stands⟩ :=
        evaluatesTest.substitute sparesTest stands
      rw [same.eq_ok] at test
      obtain ⟨_, later, chosen, same, stands⟩ :=
        branch.substitute sparesFalse stands
      exact ⟨_, _, .onFalse test chosen, same, stands⟩
  | .undefinedFunction missing, _, stands =>
    ⟨_, _, .undefinedFunction missing, .refl _, stands⟩
  | .argumentFails found fails, spares, stands => by
      obtain ⟨_, later, given, same, stands⟩ :=
        fails.substitute spares.of_call stands
      obtain ⟨error, rfl, kind⟩ := same.eq_error
      exact ⟨_, _, .argumentFails found given, .of_kind kind, stands⟩
  | .surplus found evaluatesAll tooMany, spares, stands => by
      obtain ⟨_, later, given, same, stands⟩ :=
        evaluatesAll.substitute spares.of_call stands
      rw [same.eq_ok] at given
      exact ⟨_, _, .surplus found given tooMany, .refl _, stands⟩
  | .call found evaluatesAll few body, spares, stands => by
      obtain ⟨_, later, given, same, stands⟩ :=
        evaluatesAll.substitute spares.of_call stands
      rw [same.eq_ok] at given
      -- The body has an environment of its own, so nothing of it is replaced.
      exact ⟨_, _, .call found given few body, .refl _, stands⟩

theorem EvaluatesAll.substitute {expressions : List Expr}
    {before after first : Environment}
    {outcome : Except RuntimeError (List Int64)} {height bodies : Nat} :
    EvaluatesAll functions expressions before outcome after height bodies →
      (∀ expression ∈ expressions, expression.Spares values) →
        Stands values before first →
          ∃ other later,
            EvaluatesAll functions (Expr.substituteAll values expressions) first
              other later height bodies ∧
            SameKind outcome other ∧ Stands values after later
  | .nil, _, stands => ⟨_, _, .nil, .refl _, stands⟩
  | .firstFails fails, spares, stands => by
      have ⟨sparesFirst, _⟩ := List.forall_mem_cons.mp spares
      obtain ⟨_, later, failed, same, stands⟩ :=
        fails.substitute sparesFirst stands
      obtain ⟨error, rfl, kind⟩ := same.eq_error
      exact ⟨_, _, .firstFails failed, .of_kind kind, stands⟩
  | .restFails evaluatesFirst fails, spares, stands => by
      have ⟨sparesFirst, sparesRest⟩ := List.forall_mem_cons.mp spares
      obtain ⟨_, between, value, same, stands⟩ :=
        evaluatesFirst.substitute sparesFirst stands
      rw [same.eq_ok] at value
      obtain ⟨_, later, failed, same, stands⟩ :=
        fails.substitute sparesRest stands
      obtain ⟨error, rfl, kind⟩ := same.eq_error
      exact ⟨_, _, .restFails value failed, .of_kind kind, stands⟩
  | .cons evaluatesFirst evaluatesRest, spares, stands => by
      have ⟨sparesFirst, sparesRest⟩ := List.forall_mem_cons.mp spares
      obtain ⟨_, between, value, same, stands⟩ :=
        evaluatesFirst.substitute sparesFirst stands
      rw [same.eq_ok] at value
      obtain ⟨_, later, rest, same, stands⟩ :=
        evaluatesRest.substitute sparesRest stands
      rw [same.eq_ok] at rest
      exact ⟨_, _, .cons value rest, .refl _, stands⟩

end

theorem EvaluatesAll.length_eq {expressions : List Expr} :
    {before after : Environment} → {given : List Int64} →
      {height bodies : Nat} →
        EvaluatesAll functions expressions before (.ok given) after height
          bodies → given.length = expressions.length
  | _, _, _, _, _, .nil => rfl
  | _, _, _, _, _, .cons _ evaluatesRest => by
      rw [List.length_cons, List.length_cons, evaluatesRest.length_eq]

namespace Evaluator

/-- Evaluates expressions one after the other, as long as they have values. -/
def evaluateAll (evaluator : Evaluator) :
    List Expr → Environment → Except RuntimeError (List Int64) × Environment
  | [], before => (.ok [], before)
  | first :: rest, before =>
    let result := evaluator.evaluate first before
    match result.outcome with
    | .error error => (.error error, result.environment)
    | .ok value =>
      let (outcome, after) := evaluateAll evaluator rest result.environment
      (outcome.map (value :: ·), after)

theorem evaluatesAll_of_evaluateAll {limits : Limits} {expressions : List Expr}
    {before after : Environment} {given : List Int64}
    (result_eq : (fresh functions limits).evaluateAll expressions before =
      (.ok given, after)) :
    ∃ height bodies,
      EvaluatesAll functions expressions before (.ok given) after height
        bodies := by
  induction expressions generalizing before given with
  | nil =>
      simp only [evaluateAll, Prod.mk.injEq, Except.ok.injEq] at result_eq
      obtain ⟨rfl, rfl⟩ := result_eq
      exact ⟨_, _, .nil⟩
  | cons first rest induction =>
      have cases := evaluate_cases functions limits first before
      simp only [evaluateAll] at result_eq
      generalize (fresh functions limits).evaluate first before = result
        at cases result_eq
      obtain ⟨outcome, between, evaluator⟩ := result
      cases outcome with
      | error error => simp at result_eq
      | ok value =>
          rcases cases with ⟨error, isError, _⟩ | derives
          · cases isError
          · obtain ⟨height, _, bodies, _, evaluatesFirst⟩ := derives
            simp only at result_eq
            cases rest_eq :
                (fresh functions limits).evaluateAll rest between with
            | mk outcome later =>
              rw [rest_eq] at result_eq
              cases outcome with
              | error error => simp [Except.map] at result_eq
              | ok restValues =>
                  simp only [Except.map, Prod.mk.injEq, Except.ok.injEq]
                    at result_eq
                  obtain ⟨rfl, rfl⟩ := result_eq
                  obtain ⟨_, _, evaluatesRest⟩ := induction rest_eq
                  exact ⟨_, _, .cons evaluatesFirst evaluatesRest⟩

theorem derivesWithin_of_kind_ne {limits : Limits} {expression : Expr}
    {before : Environment}
    (notReached : ∀ error,
      ((fresh functions limits).evaluate expression before).outcome =
        .error error → error.kind ≠ .callDepthExceeded) :
    DerivesWithin functions limits expression before
      ((fresh functions limits).evaluate expression before).outcome
      ((fresh functions limits).evaluate expression before).environment := by
  rcases evaluate_cases functions limits expression before with
    ⟨error, isError, reached⟩ | derives
  · exact absurd (RuntimeError.kind_of_isLimitOf reached)
      (notReached error isError)
  · exact derives

/-- A call has the outcome of its body with the values of the arguments in the
place of the parameters, and leaves the environment that the arguments leave. -/
theorem evaluate_call_eq_substitute {callee : Name}
    {function : FunctionDefinition} {arguments : List Expr}
    {before after : Environment} {given : List Int64} {argumentLimits : Limits}
    (found : functions.find? callee.text = some function)
    (unassigned : ∀ target value, .assign target value ∈ function.body.nodes →
      target.infixText ∉ function.parameterNames)
    (few : arguments.length ≤ function.arity)
    (given_eq : (fresh functions argumentLimits).evaluateAll arguments before =
      (.ok given, after))
    (close : Span) (limits bodyLimits : Limits) :
    let call := (fresh functions limits).evaluate
      (.call callee arguments close) before
    let body := (fresh functions bodyLimits).evaluate
      (function.body.substitute
        (Environment.parameterValue? function.parameterNames given)) .empty
    (∀ error, call.outcome = .error error → error.kind ≠ .callDepthExceeded) →
      (∀ error, body.outcome = .error error →
        error.kind ≠ .callDepthExceeded) →
        call.environment = after ∧ SameKind call.outcome body.outcome := by
  intro call body callInLimits bodyInLimits
  obtain ⟨_, _, evaluatesAll⟩ := evaluatesAll_of_evaluateAll given_eq
  have enough : given.length ≤ function.arity := by
    rw [evaluatesAll.length_eq]
    exact few
  obtain ⟨_, _, _, _, evaluatesBody⟩ := derivesWithin_of_kind_ne bodyInLimits
  change Evaluates _ _ _ body.outcome body.environment _ _ at evaluatesBody
  obtain ⟨_, _, _, _, evaluatesCall⟩ := derivesWithin_of_kind_ne callInLimits
  change Evaluates _ _ _ call.outcome call.environment _ _ at evaluatesCall
  generalize call.outcome = outcome, call.environment = left at evaluatesCall ⊢
  cases evaluatesCall with
  | undefinedFunction missing =>
      rw [found] at missing
      cases missing
  | argumentFails _ fails =>
      obtain ⟨impossible, _⟩ := fails.unique evaluatesAll
      cases impossible
  | surplus found' evaluatesAll' tooMany =>
      rw [found] at found'
      cases found'
      obtain ⟨values_eq, _⟩ := evaluatesAll'.unique evaluatesAll
      cases values_eq
      omega
  | call found' evaluatesAll' _ own =>
      rw [found] at found'
      cases found'
      obtain ⟨values_eq, after_eq⟩ := evaluatesAll'.unique evaluatesAll
      cases values_eq
      refine ⟨after_eq, ?_⟩
      have spares : function.body.Spares
          (Environment.parameterValue? function.parameterNames given) := by
        intro target value member
        exact Environment.parameterValue?_eq_none.mpr
          (unassigned target value member)
      obtain ⟨other, _, substituted, same, _⟩ :=
        own.substitute spares (.bindAll _ _)
      obtain ⟨rfl, _⟩ := substituted.unique evaluatesBody
      exact same

theorem kind_ne_of_divisionByZero {limits : Limits} {expression : Expr}
    {before after : Environment} {text : String} {span : Span}
    (derives : DerivesWithin functions limits expression before
      (.error (.divisionByZero text span)) after) :
    ∀ error,
      ((fresh functions limits).evaluate expression before).outcome =
        .error error → error.kind ≠ .callDepthExceeded := by
  intro error isError
  rw [evaluate_of_derivesWithin derives] at isError
  cases isError
  simp [RuntimeError.kind]

/-- The function that divides its first parameter by the second. -/
def ratio : FunctionDefinition :=
  { name := ⟨"ratio", .unknown⟩
    parameters := [⟨"x", .unknown⟩, ⟨"y", .unknown⟩]
    body := .binary .divide (.var ⟨"x", .unknown⟩) (.var ⟨"y", .unknown⟩) }

/-- The call `ratio(a=6)` divides by the missing argument, and so does `6/0`. -/
theorem evaluate_ratio_eq_substitute :
    let evaluator := fresh (FunctionTable.empty.define ratio) .standard
    let stored := Expr.assign (.var ⟨"a", .unknown⟩) (.literal 6 .unknown)
    let call := evaluator.evaluate (.call ⟨"ratio", .unknown⟩ [stored] .unknown)
      .empty
    let body := evaluator.evaluate
      (.binary .divide (.literal 6 .unknown) (.literal 0 .unknown)) .empty
    call.environment = Environment.empty.assign "a" 6 ∧
      SameKind call.outcome body.outcome := by
  let table := FunctionTable.empty.define ratio
  let stored := Expr.assign (.var ⟨"a", .unknown⟩) (.literal 6 .unknown)
  have found : table.find? (Name.text ⟨"ratio", .unknown⟩) = some ratio := by
    simp only [table, FunctionTable.find?_define]
    rfl
  have unassigned : ∀ target value, .assign target value ∈ ratio.body.nodes →
      target.infixText ∉ ratio.parameterNames := by
    intro target value member
    simp [ratio, Expr.nodes] at member
  have few : [stored].length ≤ ratio.arity := by decide
  have stores : Evaluates table stored .empty (.ok 6)
      (Environment.empty.assign "a" 6) 2 0 := .store .literal
  have storesWithin : DerivesWithin table .standard stored .empty (.ok 6)
      (Environment.empty.assign "a" 6) := ⟨2, by decide, 0, by decide, stores⟩
  have given_eq : (fresh table .standard).evaluateAll [stored] .empty =
      (.ok [6], Environment.empty.assign "a" 6) := by
    simp only [evaluateAll, evaluate_of_derivesWithin storesWithin]
    rfl
  apply evaluate_call_eq_substitute found unassigned few given_eq .unknown
    .standard .standard
  · apply kind_ne_of_divisionByZero
    exact ⟨3, by decide, 1, by decide,
      .call found (.cons stores .nil) (by decide)
        (.divisionByZero .var .var rfl)⟩
  · apply kind_ne_of_divisionByZero
    exact ⟨2, by decide, 0, by decide, .divisionByZero .literal .literal rfl⟩

end Evaluator

end Calculator
