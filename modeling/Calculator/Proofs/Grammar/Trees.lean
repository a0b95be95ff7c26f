import Calculator.Grammar.Rule

/-!
# The trees of the grammar

The nodes of a tree are the tree itself and all of its parts, the targets of
assignments included.  A tree is permitted if only variables are assigned to and
no call has too many arguments.  Every tree that the grammar builds is of this
form, whereas a tree that is put together by hand need not be.
-/

namespace Calculator
namespace Expr

mutual

/-- A tree and all of its parts. -/
def nodes : Expr → List Expr
  | .literal value span => [.literal value span]
  | .var name => [.var name]
  | .binary operator left right =>
      .binary operator left right :: (left.nodes ++ right.nodes)
  | .assign target value =>
      .assign target value :: (target.nodes ++ value.nodes)
  | .conditional test onTrue onFalse =>
      .conditional test onTrue onFalse ::
        (test.nodes ++ (onTrue.nodes ++ onFalse.nodes))
  | .call callee arguments close =>
      .call callee arguments close :: nodesOfAll arguments

/-- The nodes of some trees. -/
def nodesOfAll : List Expr → List Expr
  | [] => []
  | first :: rest => first.nodes ++ nodesOfAll rest

end

@[simp] theorem mem_nodesOfAll {node : Expr} {expressions : List Expr} :
    node ∈ nodesOfAll expressions ↔
      ∃ expression ∈ expressions, node ∈ expression.nodes := by
  induction expressions with
  | nil => simp [nodesOfAll]
  | cons first rest induction => simp [nodesOfAll, induction]

/-- Only variables are assigned to, and no call has too many arguments. -/
structure Permitted (expression : Expr) : Prop where
  targets : ∀ target value, .assign target value ∈ expression.nodes →
    ∃ name, target = .var name
  arguments : ∀ callee arguments close,
    .call callee arguments close ∈ expression.nodes →
      arguments.length ≤ Grammar.maximumArity

theorem permitted_iff (expression : Expr) :
    expression.Permitted ↔
      (∀ target value, .assign target value ∈ expression.nodes →
        ∃ name, target = .var name) ∧
      ∀ callee arguments close,
        .call callee arguments close ∈ expression.nodes →
          arguments.length ≤ Grammar.maximumArity :=
  ⟨fun permitted => ⟨permitted.targets, permitted.arguments⟩,
    fun parts => ⟨parts.1, parts.2⟩⟩

@[simp] theorem permitted_literal (value : Int64) (span : Span) :
    (literal value span).Permitted := by
  simp [permitted_iff, nodes]

@[simp] theorem permitted_var (name : Name) : (var name).Permitted := by
  simp [permitted_iff, nodes]

@[simp] theorem permitted_binary (operator : Operator) (left right : Expr) :
    (binary operator left right).Permitted ↔
      left.Permitted ∧ right.Permitted := by
  simp only [permitted_iff, nodes, List.mem_cons, List.mem_append, reduceCtorEq,
    false_or, or_imp, forall_and]
  exact and_and_and_comm

@[simp] theorem permitted_conditional (test onTrue onFalse : Expr) :
    (conditional test onTrue onFalse).Permitted ↔
      test.Permitted ∧ onTrue.Permitted ∧ onFalse.Permitted := by
  simp only [permitted_iff, nodes, List.mem_cons, List.mem_append, reduceCtorEq,
    false_or, or_imp, forall_and]
  constructor
  · rintro ⟨⟨first, second, third⟩, first', second', third'⟩
    exact ⟨⟨first, first'⟩, ⟨second, second'⟩, third, third'⟩
  · rintro ⟨⟨first, first'⟩, ⟨second, second'⟩, third, third'⟩
    exact ⟨⟨first, second, third⟩, first', second', third'⟩

@[simp] theorem permitted_assign (target value : Expr) :
    (assign target value).Permitted ↔
      (∃ name, target = .var name) ∧ value.Permitted := by
  constructor
  · intro permitted
    have whole := permitted.targets target value (by simp [nodes])
    refine ⟨whole, fun target' value' member => ?_,
      fun callee given close member => ?_⟩
    · exact permitted.targets target' value' (by simp [nodes, member])
    · exact permitted.arguments callee given close (by simp [nodes, member])
  · rintro ⟨⟨name, rfl⟩, permitted⟩
    refine ⟨fun target value member => ?_, fun callee given close member => ?_⟩
    · simp only [nodes, List.mem_cons, List.mem_append, assign.injEq,
        reduceCtorEq, List.not_mem_nil, or_false, false_or] at member
      rcases member with ⟨rfl, -⟩ | inside
      · exact ⟨name, rfl⟩
      · exact permitted.targets target value inside
    · simp only [nodes, List.mem_cons, List.mem_append, reduceCtorEq,
        List.not_mem_nil, or_false, false_or] at member
      exact permitted.arguments callee given close member

theorem Permitted.target {target value : Expr}
    (permitted : (assign target value).Permitted) : target.Permitted := by
  obtain ⟨⟨name, rfl⟩, _⟩ := (permitted_assign ..).mp permitted
  exact permitted_var name

@[simp] theorem permitted_call (callee : Name) (arguments : List Expr)
    (close : Span) :
    (call callee arguments close).Permitted ↔
      arguments.length ≤ Grammar.maximumArity ∧
        ∀ argument ∈ arguments, argument.Permitted := by
  constructor
  · intro permitted
    refine ⟨permitted.arguments callee arguments close (by simp [nodes]), ?_⟩
    intro argument member
    refine ⟨fun target value inside => ?_, fun callee given close inside => ?_⟩
    · exact permitted.targets target value
        (by simp only [nodes, List.mem_cons, mem_nodesOfAll]
            exact .inr ⟨argument, member, inside⟩)
    · exact permitted.arguments callee given close
        (by simp only [nodes, List.mem_cons, mem_nodesOfAll]
            exact .inr ⟨argument, member, inside⟩)
  · rintro ⟨few, permitted⟩
    refine ⟨fun target value member => ?_,
      fun callee' given close' member => ?_⟩
    · simp only [nodes, List.mem_cons, reduceCtorEq, mem_nodesOfAll,
        false_or] at member
      obtain ⟨argument, given, inside⟩ := member
      exact (permitted argument given).targets target value inside
    · simp only [nodes, List.mem_cons, call.injEq, mem_nodesOfAll] at member
      rcases member with ⟨-, rfl, -⟩ | ⟨argument, among, inside⟩
      · exact few
      · exact (permitted argument among).arguments callee' given close' inside

mutual

/-- Whether a tree is permitted does not depend on its places. -/
theorem permitted_eraseSpans : (expression : Expr) →
    (expression.eraseSpans.Permitted ↔ expression.Permitted)
  | .literal .. | .var _ => by simp [eraseSpans]
  | .binary _ left right => by
      simp only [eraseSpans, permitted_binary, permitted_eraseSpans left,
        permitted_eraseSpans right]
  | .assign target value => by
      have isVariable : (∃ name, target.eraseSpans = .var name) ↔
          ∃ name, target = .var name := by
        cases target <;> simp [eraseSpans]
      simp only [eraseSpans, permitted_assign, isVariable,
        permitted_eraseSpans value]
  | .conditional test onTrue onFalse => by
      simp only [eraseSpans, permitted_conditional, permitted_eraseSpans test,
        permitted_eraseSpans onTrue, permitted_eraseSpans onFalse]
  | .call _ arguments _ => by
      have length_eq : (eraseAllSpans arguments).length = arguments.length := by
        rw [eraseAllSpans_eq_map, List.length_map]
      simp only [eraseSpans, permitted_call, length_eq,
        permitted_eraseAllSpans arguments]

theorem permitted_eraseAllSpans : (expressions : List Expr) →
    ((∀ expression ∈ eraseAllSpans expressions, expression.Permitted) ↔
      ∀ expression ∈ expressions, expression.Permitted)
  | [] => by simp [eraseAllSpans]
  | first :: rest => by
      simp only [eraseAllSpans, List.forall_mem_cons,
        permitted_eraseSpans first, permitted_eraseAllSpans rest]

end

mutual

@[simp] theorem height_eraseSpans : (expression : Expr) →
    expression.eraseSpans.height = expression.height
  | .literal .. | .var _ => rfl
  | .binary _ left right => by
      simp only [eraseSpans, height, height_eraseSpans left,
        height_eraseSpans right]
  | .assign target value => by
      simp only [eraseSpans, height, height_eraseSpans target,
        height_eraseSpans value]
  | .conditional test onTrue onFalse => by
      simp only [eraseSpans, height, height_eraseSpans test,
        height_eraseSpans onTrue, height_eraseSpans onFalse]
  | .call _ arguments _ => by
      simp only [eraseSpans, height, greatestHeight_eraseAllSpans arguments]

@[simp] theorem greatestHeight_eraseAllSpans : (expressions : List Expr) →
    greatestHeight (eraseAllSpans expressions) = greatestHeight expressions
  | [] => rfl
  | first :: rest => by
      simp only [eraseAllSpans, greatestHeight, height_eraseSpans first,
        greatestHeight_eraseAllSpans rest]

end

theorem height_pos (expression : Expr) : 0 < expression.height := by
  cases expression <;> simp only [height] <;> omega

theorem greatestHeight_append (before : List Expr) (last : Expr) :
    greatestHeight (before ++ [last]) =
      max (greatestHeight before) last.height := by
  induction before with
  | nil => simp [greatestHeight]
  | cons first rest induction =>
      simp only [List.cons_append, greatestHeight, induction, Nat.max_assoc]

end Expr
end Calculator
