import Calculator.Proofs.Evaluator.Bounds

/-!
# Places have no effect

Evaluation looks at the places of an expression only to say where it failed.
Without the places of the expression and of all functions it does the same to
the environment and has the same value or the same error, less its place.
-/

namespace Calculator

namespace Expr

/-- A tree without places covers no range. -/
@[simp] theorem span_eraseSpans : (expression : Expr) →
    expression.eraseSpans.span = .unknown
  | .literal .. | .var _ | .call .. => rfl
  | .binary _ left right => by
      simp only [eraseSpans, span, span_eraseSpans left, span_eraseSpans right]
      rfl
  | .assign target value => by
      simp only [eraseSpans, span, span_eraseSpans target,
        span_eraseSpans value]
      rfl
  | .conditional test _ onFalse => by
      simp only [eraseSpans, span, span_eraseSpans test,
        span_eraseSpans onFalse]
      rfl

mutual

@[simp] theorem infixText_eraseSpans : (expression : Expr) →
    expression.eraseSpans.infixText = expression.infixText
  | .literal .. | .var _ => rfl
  | .binary _ left right => by
      simp only [eraseSpans, infixText, infixText_eraseSpans left,
        infixText_eraseSpans right]
  | .assign target value => by
      simp only [eraseSpans, infixText, infixText_eraseSpans target,
        infixText_eraseSpans value]
  | .conditional test onTrue onFalse => by
      simp only [eraseSpans, infixText, infixText_eraseSpans test,
        infixText_eraseSpans onTrue, infixText_eraseSpans onFalse]
  | .call _ arguments _ => by
      simp only [eraseSpans, infixText, infixTexts_eraseAllSpans arguments]

theorem infixTexts_eraseAllSpans : (expressions : List Expr) →
    infixTexts (eraseAllSpans expressions) = infixTexts expressions
  | [] => rfl
  | first :: rest => by
      simp only [eraseAllSpans, infixTexts, infixText_eraseSpans first,
        infixTexts_eraseAllSpans rest]

end

end Expr

/-- The same name without its place. -/
def Name.eraseSpan (name : Name) : Name :=
  ⟨name.text, .unknown⟩

/-- The same function without any places. -/
def FunctionDefinition.eraseSpans (function : FunctionDefinition) :
    FunctionDefinition :=
  { name := function.name.eraseSpan
    parameters := function.parameters.map Name.eraseSpan
    body := function.body.eraseSpans }

namespace FunctionDefinition

@[simp] theorem arity_eraseSpans (function : FunctionDefinition) :
    function.eraseSpans.arity = function.arity :=
  List.length_map ..

@[simp] theorem parameterNames_eraseSpans (function : FunctionDefinition) :
    function.eraseSpans.parameterNames = function.parameterNames := by
  simp only [parameterNames, eraseSpans, List.map_map]
  rfl

/-- Two functions are alike if and only if they are the same without places. -/
theorem alike_iff (first second : FunctionDefinition) :
    first.alike second = true ↔ first.eraseSpans = second.eraseSpans := by
  have parameters_iff :
      first.parameters.map Name.eraseSpan =
          second.parameters.map Name.eraseSpan ↔
        first.parameterNames = second.parameterNames := by
    have parameters_eq (function : FunctionDefinition) :
        function.parameters.map Name.eraseSpan =
          function.parameterNames.map (Name.mk · .unknown) := by
      rw [parameterNames, List.map_map]
      rfl
    rw [parameters_eq, parameters_eq]
    exact List.map_inj_right fun _ _ same => congrArg Name.text same
  simp only [alike, eraseSpans, parameters_iff, Name.eraseSpan,
    Bool.and_eq_true, beq_iff_eq, Expr.alike_iff, mk.injEq, Name.mk.injEq,
    and_true, and_assoc]

end FunctionDefinition

/-- The map with every value changed in the same way. -/
def SortedMap.map {First Second : Type} (change : First → Second)
    (bindings : SortedMap First) : SortedMap Second :=
  ⟨bindings.entries.map fun entry => (entry.1, change entry.2), by
    rw [NamesIncrease, List.pairwise_map]
    exact bindings.sorted⟩

@[simp] theorem SortedMap.find?_map {First Second : Type}
    (change : First → Second) (bindings : SortedMap First) (name : String) :
    (bindings.map change).find? name = (bindings.find? name).map change := by
  obtain ⟨entries, sorted⟩ := bindings
  simp only [SortedMap.map, find?]
  clear sorted
  induction entries with
  | nil => rfl
  | cons first rest induction =>
      simp only [List.map_cons, findAmong?, induction]
      split <;> rfl

/-- The same functions without any places. -/
def FunctionTable.eraseSpans (table : FunctionTable) : FunctionTable :=
  ⟨table.functions.map FunctionDefinition.eraseSpans⟩

@[simp] theorem FunctionTable.find?_eraseSpans (table : FunctionTable)
    (name : String) :
    table.eraseSpans.find? name =
      (table.find? name).map FunctionDefinition.eraseSpans :=
  SortedMap.find?_map ..

namespace RuntimeError

/-- The same error without its place. -/
def eraseSpan : RuntimeError → RuntimeError
  | .undefinedFunction name _ => .undefinedFunction name .unknown
  | .divisionByZero text _ => .divisionByZero text .unknown
  | .arityMismatch name arity given _ =>
    .arityMismatch name arity given .unknown
  | error => error

@[simp] theorem kind_eraseSpan (error : RuntimeError) :
    error.eraseSpan.kind = error.kind := by
  cases error <;> rfl

end RuntimeError

namespace Evaluator

/-- The same result with no place in its error. -/
def withoutPlace {Value : Type} :
    EStateM.Result RuntimeError Environment Value →
      EStateM.Result RuntimeError Environment Value
  | .ok value after => .ok value after
  | .error error after => .error error.eraseSpan after

variable {functions : FunctionTable} {limits : Limits}

theorem operate_eraseSpans (operator : Operator) (left right : Expr)
    (leftValue rightValue : Int64) (before : Environment) :
    operate operator left.eraseSpans right.eraseSpans leftValue rightValue
        before =
      withoutPlace
        (operate operator left right leftValue rightValue before) := by
  have text_eq := Expr.infixText_eraseSpans (.binary operator left right)
  have span_eq := Expr.span_eraseSpans (.binary operator left right)
  rw [Expr.eraseSpans] at text_eq span_eq
  unfold operate
  cases operator.result? leftValue rightValue with
  | some result => rfl
  | none =>
      simp only [text_eq, span_eq]
      rfl

theorem all_eraseSpans {part erased : Expr → Action Int64}
    (part_eq : ∀ expression before, erased expression.eraseSpans before =
      withoutPlace (part expression before))
    (expressions : List Expr) (before : Environment) :
    Action.all erased (Expr.eraseAllSpans expressions) before =
      withoutPlace (Action.all part expressions before) := by
  induction expressions generalizing before with
  | nil => rfl
  | cons first rest induction =>
      simp only [Expr.eraseAllSpans, Action.all, bind, EStateM.bind, part_eq]
      cases part first before with
      | error error after => rfl
      | ok value between =>
          simp only [withoutPlace, induction]
          cases Action.all part rest between <;> rfl

theorem invoke_eraseSpans {depth : Nat} {body erased : Action Int64}
    (body_eq : ∀ own, erased own = withoutPlace (body own)) (callee : Name)
    (close : Span) (function : FunctionDefinition) (values : List Int64)
    (before : Environment) :
    invoke limits depth callee.eraseSpan .unknown function.eraseSpans erased
        values before =
      withoutPlace
        (invoke limits depth callee close function body values before) := by
  unfold invoke
  simp only [FunctionDefinition.arity_eraseSpans,
    FunctionDefinition.parameterNames_eraseSpans]
  by_cases tooMany : function.arity < values.length
  · rw [if_pos tooMany, if_pos tooMany]
    rfl
  · rw [if_neg tooMany, if_neg tooMany]
    by_cases full : limits.maximumCallDepth ≤ depth
    · rw [if_pos full, if_pos full]
      rfl
    · rw [if_neg full, if_neg full]
      simp only [Action.isolated, body_eq]
      cases body (Environment.empty.bindAll function.parameterNames values) <;>
        rfl

/-- Places do not change what an expression means. -/
theorem meaning_eraseSpans (room depth : Nat) (expression : Expr)
    (before : Environment) :
    meaning functions.eraseSpans limits room depth expression.eraseSpans
        before =
      withoutPlace (meaning functions limits room depth expression before) := by
  induction room generalizing depth expression before with
  | zero => rfl
  | succ room induction =>
      cases expression with
      | literal value span => rfl
      | var name => rfl
      | binary operator left right =>
          simp only [Expr.eraseSpans, meaning, bind, EStateM.bind, induction]
          cases meaning functions limits room depth left before with
          | error error after => rfl
          | ok leftValue between =>
              simp only [withoutPlace]
              cases meaning functions limits room depth right between with
              | error error after => rfl
              | ok rightValue after =>
                  exact operate_eraseSpans ..
      | assign target value =>
          simp only [Expr.eraseSpans, meaning, bind, EStateM.bind, induction,
            Expr.infixText_eraseSpans]
          cases meaning functions limits room depth value before <;> rfl
      | conditional test onTrue onFalse =>
          simp only [Expr.eraseSpans, meaning, bind, EStateM.bind, induction]
          cases meaning functions limits room depth test before with
          | error error after => rfl
          | ok testValue between =>
              simp only [withoutPlace, ← apply_ite Expr.eraseSpans, induction]
      | call callee arguments close =>
          simp only [Expr.eraseSpans, meaning, FunctionTable.find?_eraseSpans]
          cases functions.find? callee.text with
          | none => rfl
          | some function =>
              simp only [Option.map_some, bind, EStateM.bind,
                all_eraseSpans (induction depth)]
              cases Action.all (meaning functions limits room depth) arguments
                  before with
              | error error after => rfl
              | ok values between =>
                  exact invoke_eraseSpans (induction (depth + 1) function.body)
                    callee close function values between

/-- Without places, evaluation ends in the same way. -/
theorem evaluate_eraseSpans (expression : Expr) (before : Environment) :
    let result := (fresh functions limits).evaluate expression before
    (fresh functions.eraseSpans limits).evaluate expression.eraseSpans before =
      ⟨result.outcome.mapError RuntimeError.eraseSpan, result.environment,
        fresh functions.eraseSpans limits⟩ := by
  simp only [evaluate_fresh, meaning_eraseSpans]
  cases meaning functions limits limits.maximumNesting 0 expression before <;>
    rfl

end Evaluator

end Calculator
