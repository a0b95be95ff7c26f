import Calculator.Operator

/-!
# Expressions

The trees that requests are read as.  A tree owns its parts, and calls refer to
functions by name only.  `height` counts the levels of a tree, `span` is the
range that it covers in its request, and `alike` compares two trees without
their places.
-/

namespace Calculator

/-- A name together with the place where it was written. -/
structure Name where
  text : String
  span : Span
  deriving DecidableEq

/-- An expression.  A call keeps the place of its closing parenthesis. -/
inductive Expr
  | literal (value : Int64) (span : Span)
  | var (name : Name)
  | binary (operator : Operator) (left right : Expr)
  | assign (target value : Expr)
  | conditional (test onTrue onFalse : Expr)
  | call (callee : Name) (arguments : List Expr) (close : Span)

namespace Expr

/-- The range that an expression covers: from its first part to its last. -/
def span : Expr → Span
  | .literal _ span => span
  | .var name => name.span
  | .binary _ left right => left.span.till right.span
  | .assign target value => target.span.till value.span
  | .conditional test _ onFalse => test.span.till onFalse.span
  | .call callee _ close => callee.span.till close

mutual

/-- The number of levels of a tree; a leaf has one. -/
def height : Expr → Nat
  | .literal .. | .var _ => 1
  | .binary _ left right => max left.height right.height + 1
  | .assign target value => max target.height value.height + 1
  | .conditional test onTrue onFalse =>
    max (max test.height onTrue.height) onFalse.height + 1
  | .call _ arguments _ => greatestHeight arguments + 1

/-- The height of the tallest of some trees. -/
def greatestHeight : List Expr → Nat
  | [] => 0
  | first :: rest => max first.height (greatestHeight rest)

end

mutual

/-- The same tree without any places. -/
def eraseSpans : Expr → Expr
  | .literal value _ => .literal value .unknown
  | .var name => .var ⟨name.text, .unknown⟩
  | .binary operator left right =>
    .binary operator left.eraseSpans right.eraseSpans
  | .assign target value => .assign target.eraseSpans value.eraseSpans
  | .conditional test onTrue onFalse =>
    .conditional test.eraseSpans onTrue.eraseSpans onFalse.eraseSpans
  | .call callee arguments _ =>
    .call ⟨callee.text, .unknown⟩ (eraseAllSpans arguments) .unknown

/-- The same trees without any places. -/
def eraseAllSpans : List Expr → List Expr
  | [] => []
  | first :: rest => first.eraseSpans :: eraseAllSpans rest

end

mutual

/-- Two trees are alike if they differ at most in their places. -/
def alike : Expr → Expr → Bool
  | .literal first _, .literal second _ => first == second
  | .var first, .var second => first.text == second.text
  | .binary operator left right, .binary operator' left' right' =>
    operator == operator' && left.alike left' && right.alike right'
  | .assign target value, .assign target' value' =>
    target.alike target' && value.alike value'
  | .conditional test onTrue onFalse, .conditional test' onTrue' onFalse' =>
    test.alike test' && onTrue.alike onTrue' && onFalse.alike onFalse'
  | .call callee arguments _, .call callee' arguments' _ =>
    callee.text == callee'.text && allAlike arguments arguments'
  | _, _ => false

/-- Two lists of trees are alike if they are so tree by tree. -/
def allAlike : List Expr → List Expr → Bool
  | [], [] => true
  | first :: rest, first' :: rest' => first.alike first' && allAlike rest rest'
  | _, _ => false

end

mutual

/-- Two trees are alike if and only if they are the same without places. -/
theorem alike_iff (first second : Expr) :
    first.alike second = true ↔ first.eraseSpans = second.eraseSpans := by
  cases first with
  | literal value span => cases second <;> simp [alike, eraseSpans]
  | var name => cases second <;> simp [alike, eraseSpans]
  | binary operator left right =>
    cases second <;>
      simp [alike, eraseSpans, alike_iff left, alike_iff right, and_assoc]
  | assign target value =>
    cases second <;>
      simp [alike, eraseSpans, alike_iff target, alike_iff value]
  | conditional test onTrue onFalse =>
    cases second <;>
      simp [alike, eraseSpans, alike_iff test, alike_iff onTrue,
        alike_iff onFalse, and_assoc]
  | call callee arguments close =>
    cases second <;> simp [alike, eraseSpans, allAlike_iff arguments]

/-- Two lists of trees are alike if and only if they are the same without
places. -/
theorem allAlike_iff (first second : List Expr) :
    allAlike first second = true ↔
      eraseAllSpans first = eraseAllSpans second := by
  cases first with
  | nil => cases second <;> simp [allAlike, eraseAllSpans]
  | cons head tail =>
    cases second <;>
      simp [allAlike, eraseAllSpans, alike_iff head, allAlike_iff tail]

end

theorem eraseAllSpans_eq_map (expressions : List Expr) :
    eraseAllSpans expressions = expressions.map eraseSpans := by
  induction expressions with
  | nil => rfl
  | cons first rest induction =>
    simp only [eraseAllSpans, List.map_cons, induction]

end Expr
end Calculator
