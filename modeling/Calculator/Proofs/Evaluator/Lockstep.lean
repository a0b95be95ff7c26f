import Calculator.Proofs.Evaluator.Bounds
import Calculator.Proofs.Evaluator.Names

/-!
# Evaluations side by side

Two evaluations of an expression run in step, if their environments look alike
to the variables that the expression reads, and their tables have the same
functions under all names that are reached from it.  They end with the same
value or the same error, and their environments still look alike.
-/

namespace Calculator

namespace Environment

/-- Environments are related in a way that the expression respects, if variables
that it reads have the same value in both, and if the environments stay related
when both read or store a variable of the expression. -/
structure Respected (whole : Expr)
    (related : Environment → Environment → Prop) : Prop where
  value_eq : ∀ {first second name}, name ∈ whole.variableNames →
    related first second → first.value name = second.value name
  touch : ∀ {first second name}, name ∈ whole.variableNames →
    related first second → related (first.touch name) (second.touch name)
  assign : ∀ {first second name}, name ∈ whole.targetNames →
    related first second → ∀ value,
      related (first.assign name value) (second.assign name value)

/-- Every expression respects equality. -/
theorem respected_eq (whole : Expr) : Respected whole Eq where
  value_eq _ same := same ▸ rfl
  touch _ same := same ▸ rfl
  assign _ same _ := same ▸ rfl

/-- Two environments give the same values to some names.  A name without a value
counts as zero. -/
def AgreesOn (names : List String) (first second : Environment) : Prop :=
  ∀ name ∈ names, first.value name = second.value name

instance (names : List String) (first second : Environment) :
    Decidable (AgreesOn names first second) :=
  inferInstanceAs (Decidable (∀ name ∈ names, _))

/-- An expression respects agreement on the variables that it reads and on any
others besides. -/
theorem respected_agreesOn {whole : Expr} {names : List String}
    (reads : whole.variableNames ⊆ names) :
    Respected whole (AgreesOn names) where
  value_eq read agrees := agrees _ (reads read)
  touch _ agrees := by
    intro name among
    rw [value_touch, value_touch]
    exact agrees name among
  assign _ agrees value := by
    intro name among
    rw [value_assign, value_assign, agrees name among]

end Environment

namespace Action

variable {First Second : Type}
  {related : Environment → Environment → Prop}

/-- Two results are the same value or the same error in related environments. -/
inductive Matched (related : Environment → Environment → Prop) :
    EStateM.Result RuntimeError Environment First →
      EStateM.Result RuntimeError Environment First → Prop
  | ok {result after later} (left : related after later) :
      Matched related (.ok result after) (.ok result later)
  | error {error after later} (left : related after later) :
      Matched related (.error error after) (.error error later)

/-- Two actions have matching results in related environments. -/
def InStep (related : Environment → Environment → Prop)
    (first second : Action First) : Prop :=
  ∀ before start, related before start →
    Matched related (first before) (second start)

theorem inStep_pure (result : First) :
    InStep related (pure result) (pure result) :=
  fun _ _ begun => .ok begun

theorem inStep_throw (error : RuntimeError) :
    InStep related (throw error : Action First) (throw error) :=
  fun _ _ begun => .error begun

theorem InStep.bind {first second : Action First}
    {next after : First → Action Second} (inStep : InStep related first second)
    (rest : ∀ result, InStep related (next result) (after result)) :
    InStep related (first >>= next) (second >>= after) := by
  intro before start begun
  have matched := inStep before start begun
  simp only [Bind.bind, EStateM.bind]
  generalize first before = firstResult, second start = secondResult
    at matched ⊢
  cases matched with
  | ok left => exact rest _ _ _ left
  | error left => exact .error left

theorem inStep_read {whole : Expr} {name : String}
    (respected : Environment.Respected whole related)
    (reads : name ∈ whole.variableNames) :
    InStep related (read name) (read name) := by
  intro before start begun
  unfold read
  rw [respected.value_eq reads begun]
  exact .ok (respected.touch reads begun)

theorem inStep_store {whole : Expr} {name : String}
    (respected : Environment.Respected whole related)
    (stores : name ∈ whole.targetNames) (value : Int64) :
    InStep related (store name value) (store name value) :=
  fun _ _ begun => .ok (respected.assign stores begun value)

/-- Actions on an environment of their own leave those outside as they are. -/
theorem inStep_isolated {first second : Action First}
    (inStep : InStep Eq first second) (own : Environment) :
    InStep related (isolated own first) (isolated own second) := by
  intro before start begun
  have matched := inStep own own rfl
  unfold isolated
  generalize first own = firstResult, second own = secondResult at matched ⊢
  cases matched with
  | ok => exact .ok begun
  | error => exact .error begun

theorem inStep_all {first second : Expr → Action Int64}
    {expressions : List Expr}
    (inStep : ∀ expression ∈ expressions,
      InStep related (first expression) (second expression)) :
    InStep related (all first expressions) (all second expressions) := by
  induction expressions with
  | nil => exact inStep_pure []
  | cons expression rest induction =>
      obtain ⟨inStepFirst, inStepRest⟩ := List.forall_mem_cons.mp inStep
      exact inStepFirst.bind fun firstValue =>
        (induction inStepRest).bind fun restValues => inStep_pure _

end Action

namespace Evaluator

open Calculator.Action

variable {limits : Limits} {related : Environment → Environment → Prop}

theorem inStep_operate (operator : Operator) (left right : Expr)
    (leftValue rightValue : Int64) :
    InStep related (operate operator left right leftValue rightValue)
      (operate operator left right leftValue rightValue) := by
  unfold operate
  split
  · exact inStep_pure _
  · exact inStep_throw _

theorem inStep_invoke {first second : Action Int64}
    (inStep : InStep Eq first second) (depth : Nat) (callee : Name)
    (close : Span) (function : FunctionDefinition) (values : List Int64) :
    InStep related (invoke limits depth callee close function first values)
      (invoke limits depth callee close function second values) := by
  unfold invoke
  by_cases tooMany : function.arity < values.length
  · rw [if_pos tooMany, if_pos tooMany]
    exact inStep_throw _
  · rw [if_neg tooMany, if_neg tooMany]
    by_cases full : limits.maximumCallDepth ≤ depth
    · rw [if_pos full, if_pos full]
      exact inStep_throw _
    · rw [if_neg full, if_neg full]
      exact inStep_isolated inStep _

/-- What an expression means is the same for tables that have the same functions
under all names reached from the whole that it is a part of. -/
theorem inStep_meaning {functions others : FunctionTable} {whole : Expr}
    (respected : Environment.Respected whole related)
    (same : ∀ name, functions.Reaches whole name →
      others.find? name = functions.find? name)
    (room depth : Nat) (expression : Expr)
    (inside : expression.parts ⊆ whole.parts) :
    InStep related (meaning functions limits room depth expression)
      (meaning others limits room depth expression) := by
  induction room generalizing related whole depth expression with
  | zero => exact inStep_throw _
  | succ room induction =>
      have part := fun expression =>
        induction respected same depth expression
      cases expression with
      | literal value span => exact inStep_pure value
      | var name =>
          exact inStep_read respected (Expr.mem_variableNames_of_var inside)
      | binary operator left right =>
          obtain ⟨insideLeft, insideRight⟩ := Expr.subset_of_binary inside
          exact (part left insideLeft).bind fun leftValue =>
            (part right insideRight).bind fun rightValue =>
              inStep_operate operator left right leftValue rightValue
      | assign target value =>
          exact (part value (Expr.subset_of_assign inside)).bind
            (inStep_store respected (Expr.mem_targetNames_of_assign inside))
      | conditional test onTrue onFalse =>
          obtain ⟨insideTest, insideTrue, insideFalse⟩ :=
            Expr.subset_of_conditional inside
          refine (part test insideTest).bind fun testValue => ?_
          split
          · exact part onFalse insideFalse
          · exact part onTrue insideTrue
      | call callee arguments close =>
          have calls := Expr.mem_calleeNames_of_call inside
          have found_eq := same callee.text (.called calls)
          simp only [meaning, found_eq]
          cases found : functions.find? callee.text with
          | none => exact inStep_throw _
          | some function =>
              -- The body runs on the same environment in both, with the names
              -- that are reached from it.
              have body := induction (Environment.respected_eq function.body)
                (fun name reaches => same name (.through calls found reaches))
                (depth + 1) function.body (List.Subset.refl _)
              exact (inStep_all fun argument given =>
                part argument (Expr.subset_of_call inside argument given)).bind
                  fun values => inStep_invoke body depth callee close function _

/-- Evaluations with tables that have the same functions under all names reached
from the expression end alike. -/
theorem evaluate_inStep {expression : Expr} {others : FunctionTable}
    {before start : Environment} (evaluator : Evaluator)
    (respected : Environment.Respected expression related)
    (same : ∀ name, evaluator.functions.Reaches expression name →
      others.find? name = evaluator.functions.find? name)
    (begun : related before start) :
    let result := evaluator.evaluate expression before
    let other := { evaluator with functions := others }.evaluate expression start
    result.outcome = other.outcome ∧
      related result.environment other.environment := by
  have inStep : InStep related
      (meaning evaluator.functions evaluator.limits
        (evaluator.limits.maximumNesting - evaluator.nesting) evaluator.depth
        expression)
      (meaning others evaluator.limits
        (evaluator.limits.maximumNesting - evaluator.nesting) evaluator.depth
        expression) :=
    inStep_meaning respected same _ _ expression (List.Subset.refl _)
  have matched := inStep before start begun
  simp only [evaluate_eq_meaning]
  generalize meaning evaluator.functions evaluator.limits _ _ expression before =
    result, meaning others evaluator.limits _ _ expression start = other
    at matched ⊢
  cases matched with
  | ok left => exact ⟨rfl, left⟩
  | error left => exact ⟨rfl, left⟩

/-- Evaluation cannot tell environments apart that agree on the variables that
the expression reads, whether these are zero or unbound.  It ends with the same
value or error, and the environments still agree on these variables and on any
others on which they agreed before. -/
theorem evaluate_agreesOn {expression : Expr} {names : List String}
    {first second : Environment} (evaluator : Evaluator)
    (reads : expression.variableNames ⊆ names)
    (agrees : first.AgreesOn names second) :
    let result := evaluator.evaluate expression first
    let other := evaluator.evaluate expression second
    result.outcome = other.outcome ∧
      result.environment.AgreesOn names other.environment :=
  evaluate_inStep evaluator (Environment.respected_agreesOn reads)
    (fun _ _ => rfl) agrees

/-- The quotient `(x=6)/z` fails alike and leaves the same `x`, whether `z` is
unbound or zero and whatever `w` is. -/
theorem evaluate_quotient_agreesOn :
    let stored := Expr.assign (.var ⟨"x", .unknown⟩) (.literal 6 .unknown)
    let quotient := Expr.binary .divide stored (.var ⟨"z", .unknown⟩)
    let names := quotient.variableNames ++ quotient.targetNames
    let zero := (Environment.empty.assign "z" 0).assign "w" 7
    let evaluator := fresh .empty .standard
    Environment.empty.AgreesOn names zero ∧
      (evaluator.evaluate quotient .empty).outcome =
        (evaluator.evaluate quotient zero).outcome ∧
      (evaluator.evaluate quotient .empty).environment.AgreesOn names
        (evaluator.evaluate quotient zero).environment := by
  intro stored quotient names zero evaluator
  have agrees : Environment.empty.AgreesOn names zero := by decide
  exact ⟨agrees,
    evaluate_agreesOn evaluator (List.subset_append_left _ _) agrees⟩

end Evaluator
end Calculator
