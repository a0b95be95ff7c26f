import Calculator.Token

/-!
# Operators

The binary operators on values, from the tightest to the loosest: products,
sums, comparisons.  Arithmetic wraps around at 64 bits, quotients are rounded
towards zero, and a comparison yields one or zero.
-/

namespace Calculator

/-- The binary operators on values. -/
inductive Operator
  | plus
  | minus
  | times
  | divide
  | modulo
  | equal
  | notEqual
  | lessEqual
  | less
  | greaterEqual
  | greater
  deriving DecidableEq

namespace Operator

/-- The spelling of an operator. -/
def symbol : Operator → String
  | .plus => "+"
  | .minus => "-"
  | .times => "*"
  | .divide => "/"
  | .modulo => "%"
  | .equal => "=="
  | .notEqual => "!="
  | .lessEqual => "<="
  | .less => "<"
  | .greaterEqual => ">="
  | .greater => ">"

/-- The operators that compare their operands. -/
def isComparison : Operator → Bool
  | .equal | .notEqual | .lessEqual | .less | .greaterEqual | .greater => true
  | _ => false

/-- The operator of a product that a token of this kind stands for. -/
def ofProduct? : TokenKind → Option Operator
  | .star => some .times
  | .slash => some .divide
  | .percent => some .modulo
  | _ => none

/-- The operator of a sum that a token of this kind stands for. -/
def ofSum? : TokenKind → Option Operator
  | .plus => some .plus
  | .minus => some .minus
  | _ => none

/-- The comparison that a token of this kind stands for. -/
def ofComparison? : TokenKind → Option Operator
  | .equalEqual => some .equal
  | .notEqual => some .notEqual
  | .lessEqual => some .lessEqual
  | .less => some .less
  | .greaterEqual => some .greaterEqual
  | .greater => some .greater
  | _ => none

/-- The value of a truth: one or zero. -/
def truth (condition : Bool) : Int64 :=
  if condition then 1 else 0

/-- The value of an operation; division by zero has none. -/
def result? (operator : Operator) (left right : Int64) : Option Int64 :=
  match operator with
  | .plus => some (left + right)
  | .minus => some (left - right)
  | .times => some (left * right)
  | .divide => if right = 0 then none else some (left / right)
  | .modulo => if right = 0 then none else some (left % right)
  | .equal => some (truth (left = right))
  | .notEqual => some (truth (left ≠ right))
  | .lessEqual => some (truth (left ≤ right))
  | .less => some (truth (left < right))
  | .greaterEqual => some (truth (left ≥ right))
  | .greater => some (truth (left > right))

end Operator
end Calculator
