import Calculator.Expr.Text
import Calculator.FunctionTable

/-!
# The names in an expression

The variables that an expression may read and store, and the functions that it
may call, when it is evaluated.  What is inside the target of an assignment is
never evaluated; the target itself counts as a variable of the name that it is
written as.  Names inside the bodies of functions belong to the bodies and not
to the expressions that call them, but calls lead on from body to body.
-/

namespace Calculator
namespace Expr

mutual

/-- A tree and those of its parts that may be evaluated, which are all but what
is inside the targets of assignments. -/
def parts : Expr → List Expr
  | .literal value span => [.literal value span]
  | .var name => [.var name]
  | .binary operator left right =>
      .binary operator left right :: (left.parts ++ right.parts)
  | .assign target value => .assign target value :: value.parts
  | .conditional test onTrue onFalse =>
      .conditional test onTrue onFalse ::
        (test.parts ++ (onTrue.parts ++ onFalse.parts))
  | .call callee arguments close =>
      .call callee arguments close :: partsOfAll arguments

/-- The parts of some trees. -/
def partsOfAll : List Expr → List Expr
  | [] => []
  | first :: rest => first.parts ++ partsOfAll rest

end

/-- Every tree is a part of itself. -/
theorem mem_parts_self (expression : Expr) : expression ∈ expression.parts := by
  cases expression <;> simp [parts]

theorem parts_subset_partsOfAll {argument : Expr} {arguments : List Expr}
    (given : argument ∈ arguments) : argument.parts ⊆ partsOfAll arguments := by
  induction arguments with
  | nil => cases given
  | cons first rest induction =>
      rcases List.mem_cons.mp given with rfl | later
      · exact List.subset_append_left _ _
      · exact List.Subset.trans (induction later)
          (List.subset_append_right _ _)

/-- The variables that an expression may read. -/
def variableNames (expression : Expr) : List String :=
  expression.parts.filterMap fun
    | .var name => some name.text
    | _ => none

/-- The variables that an expression may store values in. -/
def targetNames (expression : Expr) : List String :=
  expression.parts.filterMap fun
    | .assign target _ => some target.infixText
    | _ => none

/-- The functions that an expression may call. -/
def calleeNames (expression : Expr) : List String :=
  expression.parts.filterMap fun
    | .call callee _ _ => some callee.text
    | _ => none

/-! Inside a larger expression, the parts of a part are parts of the whole. -/

section Whole

variable {whole : Expr}

theorem subset_of_binary {operator : Operator} {left right : Expr}
    (inside : (binary operator left right).parts ⊆ whole.parts) :
    left.parts ⊆ whole.parts ∧ right.parts ⊆ whole.parts := by
  rw [parts] at inside
  exact List.append_subset.mp (List.cons_subset.mp inside).2

theorem subset_of_assign {target value : Expr}
    (inside : (assign target value).parts ⊆ whole.parts) :
    value.parts ⊆ whole.parts := by
  rw [parts] at inside
  exact (List.cons_subset.mp inside).2

theorem subset_of_conditional {test onTrue onFalse : Expr}
    (inside : (conditional test onTrue onFalse).parts ⊆ whole.parts) :
    test.parts ⊆ whole.parts ∧ onTrue.parts ⊆ whole.parts ∧
      onFalse.parts ⊆ whole.parts := by
  rw [parts] at inside
  obtain ⟨insideTest, insideBranches⟩ :=
    List.append_subset.mp (List.cons_subset.mp inside).2
  exact ⟨insideTest, List.append_subset.mp insideBranches⟩

theorem subset_of_call {callee : Name} {arguments : List Expr} {close : Span}
    (inside : (call callee arguments close).parts ⊆ whole.parts) :
    ∀ argument ∈ arguments, argument.parts ⊆ whole.parts := by
  rw [parts] at inside
  intro argument given
  exact List.Subset.trans (parts_subset_partsOfAll given)
    (List.cons_subset.mp inside).2

theorem mem_variableNames_of_var {name : Name}
    (inside : (var name).parts ⊆ whole.parts) :
    name.text ∈ whole.variableNames :=
  List.mem_filterMap.mpr ⟨_, inside (mem_parts_self _), rfl⟩

theorem mem_targetNames_of_assign {target value : Expr}
    (inside : (assign target value).parts ⊆ whole.parts) :
    target.infixText ∈ whole.targetNames :=
  List.mem_filterMap.mpr ⟨_, inside (mem_parts_self _), rfl⟩

theorem mem_calleeNames_of_call {callee : Name} {arguments : List Expr}
    {close : Span}
    (inside : (call callee arguments close).parts ⊆ whole.parts) :
    callee.text ∈ whole.calleeNames :=
  List.mem_filterMap.mpr ⟨_, inside (mem_parts_self _), rfl⟩

end Whole

end Expr

namespace FunctionTable

/-- A function is reached from an expression if the expression calls it, or
calls a function from whose body it is reached.  It need not be defined. -/
inductive Reaches (functions : FunctionTable) : Expr → String → Prop
  | called {expression name} (calls : name ∈ expression.calleeNames) :
      Reaches functions expression name
  | through {expression caller function name}
      (calls : caller ∈ expression.calleeNames)
      (found : functions.find? caller = some function)
      (reaches : Reaches functions function.body name) :
      Reaches functions expression name

/-- Names that are closed under calls contain all that is reached from an
expression which calls none but them. -/
theorem Reaches.mem_of_closed {functions : FunctionTable} {expression : Expr}
    {name : String} {names : List String}
    (closed : ∀ caller ∈ names, ∀ function,
      functions.find? caller = some function →
        function.body.calleeNames ⊆ names)
    (reaches : functions.Reaches expression name)
    (begins : expression.calleeNames ⊆ names) : name ∈ names := by
  induction reaches with
  | called calls => exact begins calls
  | through calls found _ induction =>
      exact induction (closed _ (begins calls) _ found)

end FunctionTable
end Calculator
