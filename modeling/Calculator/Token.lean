import Calculator.Location
import Calculator.Text.Decimal

/-!
# Tokens

A token is a piece of a request: its kind, the text it was written with and
the place where it stands.  The keyword of function definitions is an ordinary
name until the grammar looks at it.
-/

namespace Calculator

/-- The kinds of tokens. -/
inductive TokenKind
  | name
  | number
  | leftParenthesis
  | rightParenthesis
  | colon
  | comma
  | question
  | plus
  | minus
  | star
  | slash
  | percent
  | less
  | greater
  | equal
  | equalEqual
  | notEqual
  | lessEqual
  | greaterEqual
  deriving DecidableEq

namespace TokenKind

/-- The label of a kind in listings of tokens. -/
def label : TokenKind → String
  | .name => "NAME"
  | .number => "NUMBER"
  | .leftParenthesis => "LPAR"
  | .rightParenthesis => "RPAR"
  | .colon => "COLON"
  | .comma => "COMMA"
  | .question => "QUESTION"
  | .plus => "PLUS"
  | .minus => "MINUS"
  | .star => "STAR"
  | .slash => "SLASH"
  | .percent => "PERCENT"
  | .less => "LESS"
  | .greater => "GREATER"
  | .equal => "EQUAL"
  | .equalEqual => "EQEQUAL"
  | .notEqual => "NOTEQUAL"
  | .lessEqual => "LESSEQUAL"
  | .greaterEqual => "GREATEREQUAL"

/-- The kind of the operator or mark that one character spells. -/
def ofCharacter? : Char → Option TokenKind
  | '(' => some .leftParenthesis
  | ')' => some .rightParenthesis
  | ':' => some .colon
  | ',' => some .comma
  | '?' => some .question
  | '+' => some .plus
  | '-' => some .minus
  | '*' => some .star
  | '/' => some .slash
  | '%' => some .percent
  | '<' => some .less
  | '>' => some .greater
  | '=' => some .equal
  | _ => none

/-- The kind of the operator that a character spells together with an equal
sign after it. -/
def ofCharacterEqual? : Char → Option TokenKind
  | '=' => some .equalEqual
  | '!' => some .notEqual
  | '<' => some .lessEqual
  | '>' => some .greaterEqual
  | _ => none

/-- A number, a name or an opening parenthesis begins an operand. -/
def beginsOperand : TokenKind → Bool
  | .number | .name | .leftParenthesis => true
  | _ => false

end TokenKind

/-- A piece of a request. -/
structure Token where
  kind : TokenKind
  lexeme : String
  span : Span
  deriving DecidableEq

/-- The word that opens a function definition. -/
def definitionKeyword : String := "deffn"

namespace Token

/-- The wording of a token in listings. -/
def text (token : Token) : String :=
  s!"{token.kind.label}('{token.lexeme}')"

/-- The value of a number token.  Only a token that stands for an earlier
result carries a sign. -/
def value (token : Token) : Int64 :=
  Decimal.value token.lexeme.toList

/-- The number token of a value that has no place in the request. -/
def ofValue (value : Int64) : Token where
  kind := .number
  lexeme := Decimal.text value
  span := .unknown

/-- The keyword is a name token with that spelling. -/
def isDefinitionKeyword (token : Token) : Bool :=
  token.kind == .name && token.lexeme == definitionKeyword

/-- Two tokens are alike if they differ at most in their places. -/
def alike (first second : Token) : Bool :=
  first.kind == second.kind && first.lexeme == second.lexeme

end Token
end Calculator
