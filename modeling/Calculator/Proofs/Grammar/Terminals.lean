import Calculator.Operator
import Calculator.Proofs.Text.Decimal

/-!
# The terminals of the grammar

What the grammar takes from single tokens, written out on its own: the operators
of each level, the keyword, the other names, and the value of a number.  The
parser has tables and tests of its own for these, which are shown to agree.
-/

namespace Calculator
namespace Grammar

/-- The levels of binary operators, from the tightest to the loosest. -/
inductive Level
  | product
  | sum
  | comparison

namespace Level

/-- The operators of a level, each with the kind of token that it is written
as. -/
def operators : Level → List (TokenKind × Operator)
  | .product => [(.star, .times), (.slash, .divide), (.percent, .modulo)]
  | .sum => [(.plus, .plus), (.minus, .minus)]
  | .comparison =>
      [(.less, .less), (.lessEqual, .lessEqual), (.greater, .greater),
        (.greaterEqual, .greaterEqual), (.equalEqual, .equal),
        (.notEqual, .notEqual)]

/-- The parser's table of the operators of a level. -/
def operator? : Level → TokenKind → Option Operator
  | .product => Operator.ofProduct?
  | .sum => Operator.ofSum?
  | .comparison => Operator.ofComparison?

/-- The parser's tables hold the operators of the grammar and no others. -/
theorem operator?_eq_some_iff {level : Level} {kind : TokenKind}
    {operator : Operator} :
    level.operator? kind = some operator ↔
      (kind, operator) ∈ level.operators := by
  cases level <;> cases kind <;>
    simp [operator?, operators, Operator.ofProduct?, Operator.ofSum?,
      Operator.ofComparison?, eq_comm]

theorem operator?_eq_none_iff {level : Level} {kind : TokenKind} :
    level.operator? kind = none ↔
      ∀ operator, (kind, operator) ∉ level.operators := by
  simp only [Option.eq_none_iff_forall_ne_some, ne_eq, operator?_eq_some_iff]

end Level

/-- The keyword that opens a definition. -/
structure IsKeyword (token : Token) : Prop where
  kind : token.kind = .name
  lexeme : token.lexeme = "deffn"

/-- A name token other than the keyword. -/
structure IsName (token : Token) : Prop where
  kind : token.kind = .name
  lexeme : token.lexeme ≠ "deffn"

/-- The parser's test accepts the keyword and nothing else. -/
theorem isDefinitionKeyword_iff {token : Token} :
    token.isDefinitionKeyword = true ↔ IsKeyword token := by
  rw [Token.isDefinitionKeyword, Bool.and_eq_true, beq_iff_eq, beq_iff_eq]
  exact ⟨fun ⟨kind, lexeme⟩ => ⟨kind, lexeme⟩,
    fun isKeyword => ⟨isKeyword.kind, isKeyword.lexeme⟩⟩

theorem IsName.not_keyword {token : Token} (isName : IsName token) :
    token.isDefinitionKeyword = false :=
  Bool.eq_false_iff.mpr fun accepted =>
    isName.lexeme (isDefinitionKeyword_iff.mp accepted).lexeme

end Grammar

namespace Token

/-- The value of a number: the integer that is written, wrapped around. -/
def numeral (token : Token) : Int64 :=
  Int64.ofInt (Decimal.integer token.lexeme.toList)

/-- The parser sums up the digits of a number to its value. -/
theorem value_eq_numeral (token : Token) : token.value = token.numeral :=
  Decimal.value_eq_ofInt token.lexeme.toList

/-- A number is read back from its own spelling. -/
theorem numeral_of_lexeme {token : Token} {number : Int64}
    (lexeme_eq : token.lexeme = Decimal.text number) :
    token.numeral = number := by
  rw [← value_eq_numeral, value, lexeme_eq, Decimal.value_text]

/-- The token of an earlier result has that result as its value. -/
@[simp] theorem numeral_ofValue (number : Int64) :
    (Token.ofValue number).numeral = number :=
  numeral_of_lexeme rfl

end Token
end Calculator
