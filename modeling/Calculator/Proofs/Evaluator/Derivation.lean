import Calculator.Evaluator.Meaning
import Calculator.Proofs.Evaluator.Arithmetic

/-!
# Evaluation without limits

The value or the error of an expression, derived by rules that know of no limit.
Operands are evaluated from left to right, the value of an assignment before it
is stored, the test of a conditional before one of its branches, and the
arguments of a call before its body; a failure ends all that it is a part of.

Every derivation is measured in two ways: by its height, and by the function
bodies that are active at once.

The rules name the environments that reading, storing and binding lead to.  Which
environments these are is said by lookups alone, since an environment is known by
what is found in it.
-/

namespace Calculator

mutual

/-- `Evaluates functions expression before outcome after height bodies` says
that the expression turns one environment into another and ends with the
outcome, by a derivation of the given height in which at most so many function
bodies are active at once. -/
inductive Evaluates (functions : FunctionTable) :
    Expr → Environment → Except RuntimeError Int64 → Environment →
      (height bodies : Nat) → Prop
  | literal {value span before} :
      Evaluates functions (.literal value span) before (.ok value) before 1 0
  | var {name before} :
      Evaluates functions (.var name) before (.ok (before.value name.text))
        (before.touch name.text) 1 0
  | leftFails {operator left right before error after height bodies}
      (fails : Evaluates functions left before (.error error) after height
        bodies) :
      Evaluates functions (.binary operator left right) before (.error error)
        after (height + 1) bodies
  | rightFails {operator left right before leftValue between error after height
        bodies rightHeight rightBodies}
      (evaluatesLeft : Evaluates functions left before (.ok leftValue) between
        height bodies)
      (fails : Evaluates functions right between (.error error) after
        rightHeight rightBodies) :
      Evaluates functions (.binary operator left right) before (.error error)
        after (max height rightHeight + 1) (max bodies rightBodies)
  | operation {operator left right before leftValue between rightValue after
        height bodies rightHeight rightBodies result}
      (evaluatesLeft : Evaluates functions left before (.ok leftValue) between
        height bodies)
      (evaluatesRight : Evaluates functions right between (.ok rightValue) after
        rightHeight rightBodies)
      (result_eq : operator.integerResult? leftValue.toInt rightValue.toInt =
        some result) :
      Evaluates functions (.binary operator left right) before
        (.ok (Int64.ofInt result)) after (max height rightHeight + 1)
        (max bodies rightBodies)
  | divisionByZero {operator left right before leftValue between rightValue
        after height bodies rightHeight rightBodies}
      (evaluatesLeft : Evaluates functions left before (.ok leftValue) between
        height bodies)
      (evaluatesRight : Evaluates functions right between (.ok rightValue) after
        rightHeight rightBodies)
      (result_eq : operator.integerResult? leftValue.toInt rightValue.toInt =
        none) :
      Evaluates functions (.binary operator left right) before
        (.error (.divisionByZero (Expr.binary operator left right).infixText
          (Expr.binary operator left right).span))
        after (max height rightHeight + 1) (max bodies rightBodies)
  | storeFails {target value before error after height bodies}
      (fails : Evaluates functions value before (.error error) after height
        bodies) :
      Evaluates functions (.assign target value) before (.error error) after
        (height + 1) bodies
  | store {target value before stored after height bodies}
      (evaluatesValue : Evaluates functions value before (.ok stored) after
        height bodies) :
      Evaluates functions (.assign target value) before (.ok stored)
        (after.assign target.infixText stored) (height + 1) bodies
  | testFails {test onTrue onFalse before error after height bodies}
      (fails : Evaluates functions test before (.error error) after height
        bodies) :
      Evaluates functions (.conditional test onTrue onFalse) before
        (.error error) after (height + 1) bodies
  | onTrue {test onTrue onFalse before testValue between outcome after height
        bodies branchHeight branchBodies}
      (evaluatesTest : Evaluates functions test before (.ok testValue) between
        height bodies)
      (nonzero : testValue ≠ 0)
      (branch : Evaluates functions onTrue between outcome after branchHeight
        branchBodies) :
      Evaluates functions (.conditional test onTrue onFalse) before outcome
        after (max height branchHeight + 1) (max bodies branchBodies)
  | onFalse {test onTrue onFalse before between outcome after height bodies
        branchHeight branchBodies}
      (evaluatesTest : Evaluates functions test before (.ok 0) between height
        bodies)
      (branch : Evaluates functions onFalse between outcome after branchHeight
        branchBodies) :
      Evaluates functions (.conditional test onTrue onFalse) before outcome
        after (max height branchHeight + 1) (max bodies branchBodies)
  | undefinedFunction {callee arguments close before}
      (missing : functions.find? callee.text = none) :
      Evaluates functions (.call callee arguments close) before
        (.error (.undefinedFunction callee.text (callee.span.till close)))
        before 1 0
  | argumentFails {callee arguments close before function error after height
        bodies}
      (found : functions.find? callee.text = some function)
      (fails : EvaluatesAll functions arguments before (.error error) after
        height bodies) :
      Evaluates functions (.call callee arguments close) before (.error error)
        after (height + 1) bodies
  | surplus {callee arguments close before function values after height bodies}
      (found : functions.find? callee.text = some function)
      (given : EvaluatesAll functions arguments before (.ok values) after height
        bodies)
      (tooMany : function.arity < values.length) :
      Evaluates functions (.call callee arguments close) before
        (.error (.arityMismatch callee.text function.arity values.length
          (callee.span.till close)))
        after (height + 1) bodies
  | call {callee arguments close before function values after own outcome
        height bodies bodyHeight bodyBodies}
      (found : functions.find? callee.text = some function)
      (given : EvaluatesAll functions arguments before (.ok values) after height
        bodies)
      (few : values.length ≤ function.arity)
      (body : Evaluates functions function.body
        (Environment.empty.bindAll function.parameterNames values) outcome own
        bodyHeight bodyBodies) :
      Evaluates functions (.call callee arguments close) before outcome after
        (max height bodyHeight + 1) (max bodies (bodyBodies + 1))

/-- The values of some expressions from left to right, up to the first failure.
-/
inductive EvaluatesAll (functions : FunctionTable) :
    List Expr → Environment → Except RuntimeError (List Int64) → Environment →
      (height bodies : Nat) → Prop
  | nil {before} : EvaluatesAll functions [] before (.ok []) before 0 0
  | firstFails {first rest before error after height bodies}
      (fails : Evaluates functions first before (.error error) after height
        bodies) :
      EvaluatesAll functions (first :: rest) before (.error error) after height
        bodies
  | restFails {first rest before firstValue between error after height bodies
        restHeight restBodies}
      (evaluatesFirst : Evaluates functions first before (.ok firstValue)
        between height bodies)
      (fails : EvaluatesAll functions rest between (.error error) after
        restHeight restBodies) :
      EvaluatesAll functions (first :: rest) before (.error error) after
        (max height restHeight) (max bodies restBodies)
  | cons {first rest before firstValue between restValues after height bodies
        restHeight restBodies}
      (evaluatesFirst : Evaluates functions first before (.ok firstValue)
        between height bodies)
      (evaluatesRest : EvaluatesAll functions rest between (.ok restValues)
        after restHeight restBodies) :
      EvaluatesAll functions (first :: rest) before
        (.ok (firstValue :: restValues)) after (max height restHeight)
        (max bodies restBodies)

end

namespace Environment

/-! ### Environments by their lookups -/

theorem eq_touch_iff {before after : Environment} {name : String} :
    after = before.touch name ↔
      ∀ other, after.find? other =
        if name = other then some ((before.find? name).getD 0)
        else before.find? other := by
  constructor
  · rintro rfl
    exact find?_touch before name
  · intro lookups
    exact ext_find? fun other =>
      (lookups other).trans (find?_touch before name other).symm

theorem eq_assign_iff {before after : Environment} {name : String}
    {value : Int64} :
    after = before.assign name value ↔
      ∀ other, after.find? other =
        if name = other then some value else before.find? other := by
  constructor
  · rintro rfl other
    exact find?_assign before name other value
  · intro lookups
    exact ext_find? fun other =>
      (lookups other).trans (find?_assign before name other value).symm

/-- The value that a parameter gets from the values of a call: zero if there are
not enough, and that of its last mention if it is repeated. -/
def parameterValue? : List String → List Int64 → String → Option Int64
  | [], _, _ => none
  | parameter :: parameters, values, name =>
    (parameterValue? parameters values.tail name).or
      (if parameter = name then some (values.headD 0) else none)

theorem find?_bindAll (environment : Environment) (names : List String)
    (values : List Int64) (name : String) :
    (environment.bindAll names values).find? name =
      (parameterValue? names values name).or (environment.find? name) := by
  induction names generalizing environment values with
  | nil => rfl
  | cons parameter parameters induction =>
      simp only [bindAll, parameterValue?, induction, find?_assign]
      split <;> simp

theorem eq_bindAll_iff {start : Environment} {names : List String}
    {values : List Int64} :
    start = empty.bindAll names values ↔
      ∀ name, start.find? name = parameterValue? names values name := by
  constructor
  · rintro rfl name
    rw [find?_bindAll, find?_empty, Option.or_none]
  · intro lookups
    refine ext_find? fun name => ?_
    rw [lookups, find?_bindAll, find?_empty, Option.or_none]

theorem parameterValue?_eq_none {names : List String} {values : List Int64}
    {name : String} :
    parameterValue? names values name = none ↔ name ∉ names := by
  induction names generalizing values with
  | nil => simp [parameterValue?]
  | cons parameter parameters induction =>
      simp only [parameterValue?, Option.or_eq_none_iff, induction,
        List.mem_cons, not_or]
      constructor
      · rintro ⟨absent, different⟩
        refine ⟨?_, absent⟩
        rintro rfl
        simp at different
      · rintro ⟨different, absent⟩
        exact ⟨absent, if_neg (Ne.symm different)⟩

/-- Parameters that differ from each other get the values in order, and zero
when there are no more. -/
theorem parameterValue?_getElem {names : List String} {values : List Int64}
    (distinct : names.Nodup) {index : Nat} (inRange : index < names.length) :
    parameterValue? names values names[index] =
      some (values.getD index 0) := by
  induction names generalizing values index with
  | nil => simp at inRange
  | cons parameter parameters induction =>
      obtain ⟨absent, distinct⟩ := List.nodup_cons.mp distinct
      cases index with
      | zero =>
          have later :
              parameterValue? parameters values.tail parameter = none :=
            parameterValue?_eq_none.mpr absent
          simp only [List.getElem_cons_zero, parameterValue?, later,
            Option.none_or, if_true]
          cases values <;> rfl
      | succ index =>
          have inRange : index < parameters.length :=
            Nat.lt_of_succ_lt_succ inRange
          have value_eq : parameterValue? parameters values.tail
              parameters[index] = some (values.tail.getD index 0) :=
            induction distinct inRange
          simp only [List.getElem_cons_succ, parameterValue?, value_eq,
            Option.some_or]
          cases values <;> simp

end Environment

namespace Evaluates

variable {functions : FunctionTable} {before after : Environment}
  {height bodies : Nat}

/-! ### Variables and calls by lookups

What reading, storing and calling do to the variables, told by what is found
under each name afterwards. -/

/-- A variable has the value that it is bound to, or zero, and is bound to it
from then on. -/
theorem var_iff {name : Name} {outcome : Except RuntimeError Int64} :
    Evaluates functions (.var name) before outcome after height bodies ↔
      outcome = .ok ((before.find? name.text).getD 0) ∧
        (∀ other, after.find? other =
          if name.text = other then some ((before.find? name.text).getD 0)
          else before.find? other) ∧
        height = 1 ∧ bodies = 0 := by
  rw [← Environment.eq_touch_iff]
  constructor
  · rintro ⟨⟩
    exact ⟨rfl, rfl, rfl, rfl⟩
  · rintro ⟨rfl, rfl, rfl, rfl⟩
    exact .var

/-- An assignment has the value that is stored, to which its target is bound
from then on; it changes no other variable. -/
theorem store_iff {target value : Expr} {stored : Int64} :
    Evaluates functions (.assign target value) before (.ok stored) after height
        bodies ↔
      ∃ between valueHeight,
        Evaluates functions value before (.ok stored) between valueHeight
          bodies ∧
        (∀ other, after.find? other =
          if target.infixText = other then some stored
          else between.find? other) ∧
        height = valueHeight + 1 := by
  simp only [← Environment.eq_assign_iff]
  constructor
  · rintro ⟨⟩
    exact ⟨_, _, ‹_›, rfl, rfl⟩
  · rintro ⟨between, valueHeight, evaluatesValue, rfl, rfl⟩
    exact .store evaluatesValue

/-- A body is evaluated where its parameters have the values given, or zero
where these have run out, and nothing else is bound. -/
theorem call_of_lookups {callee : Name} {arguments : List Expr} {close : Span}
    {function : FunctionDefinition} {values : List Int64}
    {start own : Environment} {outcome : Except RuntimeError Int64}
    {bodyHeight bodyBodies : Nat}
    (found : functions.find? callee.text = some function)
    (given : EvaluatesAll functions arguments before (.ok values) after height
      bodies)
    (few : values.length ≤ function.arity)
    (lookups : ∀ name, start.find? name =
      Environment.parameterValue? function.parameterNames values name)
    (body : Evaluates functions function.body start outcome own bodyHeight
      bodyBodies) :
    Evaluates functions (.call callee arguments close) before outcome after
      (max height bodyHeight + 1) (max bodies (bodyBodies + 1)) := by
  rw [Environment.eq_bindAll_iff.mpr lookups] at body
  exact .call found given few body

/-- A call has a value only as the value of a body that is evaluated there. -/
theorem call_iff {callee : Name} {arguments : List Expr} {close : Span}
    {value : Int64} :
    Evaluates functions (.call callee arguments close) before (.ok value) after
        height bodies ↔
      ∃ function values start own argumentHeight argumentBodies bodyHeight
          bodyBodies,
        functions.find? callee.text = some function ∧
        EvaluatesAll functions arguments before (.ok values) after
          argumentHeight argumentBodies ∧
        values.length ≤ function.arity ∧
        (∀ name, start.find? name =
          Environment.parameterValue? function.parameterNames values name) ∧
        Evaluates functions function.body start (.ok value) own bodyHeight
          bodyBodies ∧
        height = max argumentHeight bodyHeight + 1 ∧
        bodies = max argumentBodies (bodyBodies + 1) := by
  constructor
  · intro derivation
    cases derivation with
    | call found given few body =>
        exact ⟨_, _, _, _, _, _, _, _, found, given, few,
          Environment.eq_bindAll_iff.mp rfl, body, rfl, rfl⟩
  · rintro ⟨function, values, start, own, _, _, _, _, found, given, few,
      lookups, body, rfl, rfl⟩
    exact call_of_lookups found given few lookups body

end Evaluates

theorem Evaluates.height_pos {functions : FunctionTable} {expression : Expr}
    {before after : Environment} {outcome : Except RuntimeError Int64}
    {height bodies : Nat}
    (derivation : Evaluates functions expression before outcome after height
      bodies) : 0 < height := by
  cases derivation <;> omega

end Calculator
