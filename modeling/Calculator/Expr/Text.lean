import Calculator.Expr
import Calculator.Text.Decimal

/-!
# Texts of expressions

Two ways to write a tree: with operators between their operands and parentheses
around every operation, or with operators in front of them.
-/

namespace Calculator
namespace Expr

mutual

/-- A tree with operators between their operands.  Every operation stands in
parentheses, so the text does not depend on precedence. -/
def infixText : Expr → String
  | .literal value _ => Decimal.text value
  | .var name => name.text
  | .binary operator left right =>
    "(" ++ left.infixText ++ " " ++ operator.symbol ++ " " ++
      right.infixText ++ ")"
  | .assign target value =>
    "(" ++ target.infixText ++ " = " ++ value.infixText ++ ")"
  | .conditional test onTrue onFalse =>
    "(" ++ test.infixText ++ " ? " ++ onTrue.infixText ++ " : " ++
      onFalse.infixText ++ ")"
  | .call callee arguments _ =>
    callee.text ++ "(" ++ ",".intercalate (infixTexts arguments) ++ ")"

/-- The infix texts of some trees. -/
def infixTexts : List Expr → List String
  | [] => []
  | first :: rest => first.infixText :: infixTexts rest

end

mutual

/-- A tree with operators in front of their operands. -/
def lispText : Expr → String
  | .literal value _ => Decimal.text value
  | .var name => name.text
  | .binary operator left right =>
    "(" ++ operator.symbol ++ " " ++ left.lispText ++ " " ++
      right.lispText ++ ")"
  | .assign target value =>
    "(setq " ++ target.lispText ++ " " ++ value.lispText ++ ")"
  | .conditional test onTrue onFalse =>
    "(if " ++ test.lispText ++ " " ++ onTrue.lispText ++ " " ++
      onFalse.lispText ++ ")"
  | .call callee arguments _ =>
    callee.text ++ "(" ++ " ".intercalate (lispTexts arguments) ++ ")"

/-- The lisp texts of some trees. -/
def lispTexts : List Expr → List String
  | [] => []
  | first :: rest => first.lispText :: lispTexts rest

end

theorem infixTexts_eq_map (expressions : List Expr) :
    infixTexts expressions = expressions.map infixText := by
  induction expressions with
  | nil => rfl
  | cons first rest induction =>
    simp only [infixTexts, List.map_cons, induction]

theorem lispTexts_eq_map (expressions : List Expr) :
    lispTexts expressions = expressions.map lispText := by
  induction expressions with
  | nil => rfl
  | cons first rest induction =>
    simp only [lispTexts, List.map_cons, induction]

end Expr
end Calculator
