import Calculator.Evaluator.Adequacy
import Calculator.Proofs.Evaluator.Derivation

/-!
# Evaluation and derivations

An evaluation ends with what can be derived within its limits, and with one of
the two limit errors if nothing can.  Both directions go through the meaning of
an expression: a derivation that fits the room for nesting and the bodies that
may still become active determines the meaning, and a meaning other than a limit
error has such a derivation.
-/

namespace Calculator

namespace RuntimeError

/-- The errors that tell of one of the limits, and not of the expression. -/
def IsLimitOf (limits : Limits) : RuntimeError → Prop
  | .callDepthExceeded _ limit => limit = limits.maximumCallDepth
  | .nestingTooDeep limit => limit = limits.maximumNesting
  | _ => False

/-- The errors that an expression has whatever the limits are. -/
def IsFault : RuntimeError → Prop
  | .undefinedFunction .. | .divisionByZero .. | .arityMismatch .. => True
  | _ => False

end RuntimeError

namespace Evaluator

/-- The result of an action that ends with the outcome. -/
def resultOf {Value : Type} (after : Environment) :
    Except RuntimeError Value → EStateM.Result RuntimeError Environment Value
  | .ok value => .ok value after
  | .error error => .error error after

@[simp] theorem resultOf_ok {Value : Type} (after : Environment)
    (value : Value) : resultOf after (.ok value) = .ok value after :=
  rfl

@[simp] theorem resultOf_error {Value : Type} (after : Environment)
    (error : RuntimeError) :
    resultOf after (.error error : Except RuntimeError Value) =
      .error error after :=
  rfl

theorem resultOf_inj {Value : Type} {after later : Environment}
    {outcome other : Except RuntimeError Value} :
    resultOf after outcome = resultOf later other ↔
      outcome = other ∧ after = later := by
  cases outcome <;> cases other <;> simp

variable {functions : FunctionTable} {limits : Limits}

theorem isolated_of_resultOf {own after before : Environment}
    {action : Action Int64} {outcome : Except RuntimeError Int64}
    (action_eq : action own = resultOf after outcome) :
    Action.isolated own action before = resultOf before outcome := by
  cases outcome <;> simp only [Action.isolated, action_eq, resultOf]

mutual

/-- What is derived within the room and the bodies that are left is the meaning.
-/
theorem meaning_of_evaluates {expression : Expr} {before after : Environment}
    {outcome : Except RuntimeError Int64} {height bodies : Nat} :
    (room depth : Nat) →
      Evaluates functions expression before outcome after height bodies →
        height ≤ room → depth + bodies ≤ limits.maximumCallDepth →
          meaning functions limits room depth expression before =
            resultOf after outcome
  | 0, _, derivation, height_le, _ => by
      have positive := derivation.height_pos
      omega
  | _ + 1, _, .literal, _, _ => rfl
  | _ + 1, _, .var, _, _ => rfl
  | room + 1, depth, .leftFails fails, height_le, bodies_le => by
      have left := meaning_of_evaluates room depth fails (by omega) (by omega)
      simp only [meaning, bind, EStateM.bind, left, resultOf]
  | room + 1, depth, .rightFails evaluatesLeft fails, height_le, bodies_le => by
      have left :=
        meaning_of_evaluates room depth evaluatesLeft (by omega) (by omega)
      have right := meaning_of_evaluates room depth fails (by omega) (by omega)
      simp only [meaning, bind, EStateM.bind, left, right, resultOf]
  | room + 1, depth, .operation evaluatesLeft evaluatesRight result_eq,
      height_le, bodies_le => by
      have left :=
        meaning_of_evaluates room depth evaluatesLeft (by omega) (by omega)
      have right :=
        meaning_of_evaluates room depth evaluatesRight (by omega) (by omega)
      simp only [meaning, bind, EStateM.bind, left, right, resultOf, operate,
        Operator.result?_eq_integerResult?, result_eq, Option.map_some]
      rfl
  | room + 1, depth, .divisionByZero evaluatesLeft evaluatesRight result_eq,
      height_le, bodies_le => by
      have left :=
        meaning_of_evaluates room depth evaluatesLeft (by omega) (by omega)
      have right :=
        meaning_of_evaluates room depth evaluatesRight (by omega) (by omega)
      simp only [meaning, bind, EStateM.bind, left, right, resultOf, operate,
        Operator.result?_eq_integerResult?, result_eq, Option.map_none]
      rfl
  | room + 1, depth, .storeFails fails, height_le, bodies_le => by
      have value := meaning_of_evaluates room depth fails (by omega) (by omega)
      simp only [meaning, bind, EStateM.bind, value, resultOf]
  | room + 1, depth, .store evaluatesValue, height_le, bodies_le => by
      have value :=
        meaning_of_evaluates room depth evaluatesValue (by omega) (by omega)
      simp only [meaning, bind, EStateM.bind, value, resultOf, Action.store]
  | room + 1, depth, .testFails fails, height_le, bodies_le => by
      have test := meaning_of_evaluates room depth fails (by omega) (by omega)
      simp only [meaning, bind, EStateM.bind, test, resultOf]
  | room + 1, depth, .onTrue evaluatesTest nonzero branch, height_le,
      bodies_le => by
      have test :=
        meaning_of_evaluates room depth evaluatesTest (by omega) (by omega)
      have chosen :=
        meaning_of_evaluates room depth branch (by omega) (by omega)
      simp only [meaning, bind, EStateM.bind, test, resultOf_ok]
      rw [if_neg nonzero, chosen]
  | room + 1, depth, .onFalse evaluatesTest branch, height_le, bodies_le => by
      have test :=
        meaning_of_evaluates room depth evaluatesTest (by omega) (by omega)
      have chosen :=
        meaning_of_evaluates room depth branch (by omega) (by omega)
      simp only [meaning, bind, EStateM.bind, test, resultOf_ok, if_true]
      exact chosen
  | room + 1, _, .undefinedFunction missing, _, _ => by
      simp only [meaning, missing]
      rfl
  | room + 1, depth, .argumentFails found fails, height_le, bodies_le => by
      have values := all_of_evaluatesAll room depth fails (by omega) (by omega)
      simp only [meaning, found, bind, EStateM.bind, values, resultOf]
  | room + 1, depth, .surplus found given tooMany, height_le, bodies_le => by
      have values := all_of_evaluatesAll room depth given (by omega) (by omega)
      simp only [meaning, found, bind, EStateM.bind, values, resultOf_ok,
        invoke]
      rw [if_pos tooMany]
      rfl
  | room + 1, depth, .call found given few body, height_le, bodies_le => by
      have values := all_of_evaluatesAll room depth given (by omega) (by omega)
      have own :=
        meaning_of_evaluates room (depth + 1) body (by omega) (by omega)
      simp only [meaning, found, bind, EStateM.bind, values, resultOf_ok,
        invoke]
      rw [if_neg (Nat.not_lt.mpr few), if_neg (by omega)]
      exact isolated_of_resultOf own

theorem all_of_evaluatesAll {expressions : List Expr}
    {before after : Environment} {outcome : Except RuntimeError (List Int64)}
    {height bodies : Nat} :
    (room depth : Nat) →
      EvaluatesAll functions expressions before outcome after height bodies →
        height ≤ room → depth + bodies ≤ limits.maximumCallDepth →
          Action.all (meaning functions limits room depth) expressions before =
            resultOf after outcome
  | _, _, .nil, _, _ => rfl
  | room, depth, .firstFails fails, height_le, bodies_le => by
      have first := meaning_of_evaluates room depth fails height_le bodies_le
      simp only [Action.all, bind, EStateM.bind, first, resultOf]
  | room, depth, .restFails evaluatesFirst fails, height_le, bodies_le => by
      have first :=
        meaning_of_evaluates room depth evaluatesFirst (by omega) (by omega)
      have rest := all_of_evaluatesAll room depth fails (by omega) (by omega)
      simp only [Action.all, bind, EStateM.bind, first, rest, resultOf]
  | room, depth, .cons evaluatesFirst evaluatesRest, height_le, bodies_le => by
      have first :=
        meaning_of_evaluates room depth evaluatesFirst (by omega) (by omega)
      have rest :=
        all_of_evaluatesAll room depth evaluatesRest (by omega) (by omega)
      simp only [Action.all, bind, EStateM.bind, first, rest, resultOf]
      rfl

end

/-- A result is accounted for if it is a limit error, or derived within the room
and the bodies that are left. -/
inductive Accounted {Value : Type} (limits : Limits) (room depth : Nat)
    (derives : Except RuntimeError Value → Environment →
      (height bodies : Nat) → Prop) :
    EStateM.Result RuntimeError Environment Value → Prop
  | limit {error after} (reached : error.IsLimitOf limits) :
      Accounted limits room depth derives (.error error after)
  | value {value after height bodies}
      (derivation : derives (.ok value) after height bodies)
      (height_le : height ≤ room)
      (bodies_le : depth + bodies ≤ limits.maximumCallDepth) :
      Accounted limits room depth derives (.ok value after)
  | error {error after height bodies}
      (derivation : derives (.error error) after height bodies)
      (height_le : height ≤ room)
      (bodies_le : depth + bodies ≤ limits.maximumCallDepth) :
      Accounted limits room depth derives (.error error after)

/-- What is derived from something that is accounted for is so as well. -/
theorem Accounted.imp {Value : Type} {room room' depth : Nat}
    {derives : Except RuntimeError Value → Environment → Nat → Nat → Prop}
    {derives' : Except RuntimeError Value → Environment → Nat → Nat → Prop}
    {result : EStateM.Result RuntimeError Environment Value}
    (accounted : Accounted limits room depth derives result)
    (lift : ∀ {outcome after height bodies},
      derives outcome after height bodies → height ≤ room →
        depth + bodies ≤ limits.maximumCallDepth →
          ∃ height' ≤ room', ∃ bodies',
            depth + bodies' ≤ limits.maximumCallDepth ∧
              derives' outcome after height' bodies') :
    Accounted limits room' depth derives' result := by
  cases accounted with
  | limit reached => exact .limit reached
  | value derivation height_le bodies_le =>
      obtain ⟨_, height_le', _, bodies_le', derivation'⟩ :=
        lift derivation height_le bodies_le
      exact .value derivation' height_le' bodies_le'
  | error derivation height_le bodies_le =>
      obtain ⟨_, height_le', _, bodies_le', derivation'⟩ :=
        lift derivation height_le bodies_le
      exact .error derivation' height_le' bodies_le'

theorem accounted_all {room depth : Nat}
    (depth_le : depth ≤ limits.maximumCallDepth)
    (part : ∀ expression before,
      Accounted limits room depth (Evaluates functions expression before)
        (meaning functions limits room depth expression before))
    (expressions : List Expr) (before : Environment) :
    Accounted limits room depth (EvaluatesAll functions expressions before)
      (Action.all (meaning functions limits room depth) expressions
        before) := by
  induction expressions generalizing before with
  | nil => exact .value .nil (Nat.zero_le room) depth_le
  | cons first rest induction =>
      have accounted := part first before
      simp only [Action.all, bind, EStateM.bind, pure, EStateM.pure]
      generalize meaning functions limits room depth first before = result
        at accounted ⊢
      cases accounted with
      | limit reached => exact .limit reached
      | error fails height_le bodies_le =>
          exact .error (.firstFails fails) height_le bodies_le
      | @value _ between _ _ evaluatesFirst height_le bodies_le =>
          have accounted := induction between
          simp only
          generalize Action.all (meaning functions limits room depth) rest
            between = result at accounted ⊢
          cases accounted with
          | limit reached => exact .limit reached
          | error fails restHeight_le restBodies_le =>
              exact .error (.restFails evaluatesFirst fails) (by omega)
                (by omega)
          | value evaluatesRest restHeight_le restBodies_le =>
              exact .value (.cons evaluatesFirst evaluatesRest) (by omega)
                (by omega)

/-- A call of a function that was found and given its values is accounted for,
if its body is. -/
theorem accounted_invoke {room depth : Nat} {callee : Name}
    {arguments : List Expr} {close : Span} {function : FunctionDefinition}
    {before between : Environment} {values : List Int64} {height bodies : Nat}
    (found : functions.find? callee.text = some function)
    (given : EvaluatesAll functions arguments before (.ok values) between height
      bodies)
    (height_le : height ≤ room)
    (bodies_le : depth + bodies ≤ limits.maximumCallDepth)
    (body : depth + 1 ≤ limits.maximumCallDepth → ∀ own,
      Accounted limits room (depth + 1)
        (Evaluates functions function.body own)
        (meaning functions limits room (depth + 1) function.body own)) :
    Accounted limits (room + 1) depth
      (Evaluates functions (.call callee arguments close) before)
      (invoke limits depth callee close function
        (meaning functions limits room (depth + 1) function.body) values
        between) := by
  unfold invoke
  by_cases tooMany : function.arity < values.length
  · rw [if_pos tooMany]
    exact .error (.surplus found given tooMany) (by omega) bodies_le
  · rw [if_neg tooMany]
    have few := Nat.not_lt.mp tooMany
    by_cases full : limits.maximumCallDepth ≤ depth
    · rw [if_pos full]
      exact .limit rfl
    · rw [if_neg full]
      have accounted := body (by omega)
        (Environment.empty.bindAll function.parameterNames values)
      unfold Action.isolated
      generalize meaning functions limits room (depth + 1) function.body
        (Environment.empty.bindAll function.parameterNames values) = result
        at accounted ⊢
      cases accounted with
      | limit reached => exact .limit reached
      | value evaluatesBody bodyHeight_le bodyBodies_le =>
          exact .value (.call found given few evaluatesBody) (by omega)
            (by omega)
      | error fails bodyHeight_le bodyBodies_le =>
          exact .error (.call found given few fails) (by omega) (by omega)

/-- Every meaning is accounted for. -/
theorem accounted_meaning (room : Nat) {depth : Nat}
    (depth_le : depth ≤ limits.maximumCallDepth) (expression : Expr)
    (before : Environment) :
    Accounted limits room depth (Evaluates functions expression before)
      (meaning functions limits room depth expression before) := by
  induction room generalizing depth expression before with
  | zero => exact .limit rfl
  | succ room induction =>
      have part := induction depth_le
      cases expression with
      | literal value span => exact .value .literal (by omega) depth_le
      | var name => exact .value .var (by omega) depth_le
      | binary operator left right =>
          have accounted := part left before
          simp only [meaning, bind, EStateM.bind]
          generalize meaning functions limits room depth left before = result
            at accounted ⊢
          cases accounted with
          | limit reached => exact .limit reached
          | error fails height_le bodies_le =>
              exact .error (.leftFails fails) (by omega) bodies_le
          | @value leftValue between _ _ evaluatesLeft height_le bodies_le =>
              have accounted := part right between
              simp only
              generalize meaning functions limits room depth right between =
                result at accounted ⊢
              cases accounted with
              | limit reached => exact .limit reached
              | error fails rightHeight_le rightBodies_le =>
                  exact .error (.rightFails evaluatesLeft fails) (by omega)
                    (by omega)
              | @value rightValue after _ _ evaluatesRight rightHeight_le
                  rightBodies_le =>
                  simp only [operate, Operator.result?_eq_integerResult?]
                  cases result_eq : operator.integerResult? leftValue.toInt
                      rightValue.toInt with
                  | none =>
                      exact .error
                        (.divisionByZero evaluatesLeft evaluatesRight result_eq)
                        (by omega) (by omega)
                  | some result =>
                      exact .value
                        (.operation evaluatesLeft evaluatesRight result_eq)
                        (by omega) (by omega)
      | assign target value =>
          have accounted := part value before
          simp only [meaning, bind, EStateM.bind]
          generalize meaning functions limits room depth value before = result
            at accounted ⊢
          cases accounted with
          | limit reached => exact .limit reached
          | error fails height_le bodies_le =>
              exact .error (.storeFails fails) (by omega) bodies_le
          | value evaluatesValue height_le bodies_le =>
              exact .value (.store evaluatesValue) (by omega) bodies_le
      | conditional test onTrue onFalse =>
          have accounted := part test before
          simp only [meaning, bind, EStateM.bind]
          generalize meaning functions limits room depth test before = result
            at accounted ⊢
          cases accounted with
          | limit reached => exact .limit reached
          | error fails height_le bodies_le =>
              exact .error (.testFails fails) (by omega) bodies_le
          | @value testValue between _ _ evaluatesTest height_le bodies_le =>
              simp only
              by_cases zero : testValue = 0
              · subst zero
                rw [if_pos rfl]
                apply (part onFalse between).imp
                intro _ _ _ _ branch branchHeight_le branchBodies_le
                exact ⟨_, by omega, _, by omega, .onFalse evaluatesTest branch⟩
              · rw [if_neg zero]
                apply (part onTrue between).imp
                intro _ _ _ _ branch branchHeight_le branchBodies_le
                exact ⟨_, by omega, _, by omega,
                  .onTrue evaluatesTest zero branch⟩
      | call callee arguments close =>
          simp only [meaning]
          cases found : functions.find? callee.text with
          | none => exact .error (.undefinedFunction found) (by omega) depth_le
          | some function =>
              have accounted := accounted_all depth_le part arguments before
              simp only [bind, EStateM.bind]
              generalize Action.all (meaning functions limits room depth)
                arguments before = result at accounted ⊢
              cases accounted with
              | limit reached => exact .limit reached
              | error fails height_le bodies_le =>
                  exact .error (.argumentFails found fails) (by omega) bodies_le
              | value given height_le bodies_le =>
                  apply accounted_invoke found given height_le bodies_le
                  intro inLimit own
                  exact induction inLimit function.body own

end Evaluator
end Calculator
