import Calculator.Grammar
import Calculator.Proofs.Grammar.Terminals
import Calculator.Proofs.Grammar.Trees

/-!
# Readings

A reading says which expression the grammar finds at the front of some tokens,
without any of the limits.  It has one rule for every production:

    define       'deffn' NAME '(' [NAME (',' NAME)*] ')' '=' assign | assign
    assign       conditional ['=' assign]
    conditional  comparison ('?' assign ':' assign)*
    comparison   sum (('<' | '<=' | '>' | '>=' | '==' | '!=') sum)*
    sum          product (('+' | '-') product)*
    product      factor (('*' | '/' | '%') factor)*
    factor       NUMBER | '(' assign ')' | '-' product
                 | NAME '(' [assign (',' assign)*] ')' | NAME

Repetitions are read from the left, so that a phrase that has not ended may be
continued.  A phrase may be used by another production only where it has ended:
the token after it must not be one that continues it.  This makes every
optional or repeated part as long as it can be.
-/

namespace Calculator

/-- The name that a token spells, at its place. -/
def Token.asName (token : Token) : Name :=
  ⟨token.lexeme, token.span⟩

namespace Grammar

/-- The kind of the next token. -/
def nextKind? (tokens : List Token) : Option TokenKind :=
  tokens.head?.map Token.kind

@[simp] theorem nextKind?_nil : nextKind? [] = none :=
  rfl

@[simp] theorem nextKind?_cons (token : Token) (rest : List Token) :
    nextKind? (token :: rest) = some token.kind :=
  rfl

/-- What a phrase of the grammar is read as.  The binary levels are categories
of their own; `Level.operand` is what stands between their operators. -/
inductive Category
  | factor
  | chain (level : Level)
  | conditional
  | assign

/-- What the operators of a level stand between. -/
def Level.operand : Level → Category
  | .product => .factor
  | .sum => .chain .product
  | .comparison => .chain .sum

/-- A phrase has ended if the next token does not continue its repetition. -/
def Category.Ends : Category → List Token → Prop
  | .factor, _ | .assign, _ => True
  | .chain level, rest =>
      ∀ kind, nextKind? rest = some kind →
        ∀ operator, (kind, operator) ∉ level.operators
  | .conditional, rest => nextKind? rest ≠ some .question

theorem Level.ends_nil (level : Level) : (Category.chain level).Ends [] :=
  fun _ isNext => nomatch isNext

/-- A chain has ended where the parser's table has no operator for the next
token. -/
theorem Level.ends_cons {level : Level} {token : Token} {rest : List Token} :
    (Category.chain level).Ends (token :: rest) ↔
      level.operator? token.kind = none := by
  rw [Level.operator?_eq_none_iff]
  constructor
  · intro ends
    exact ends token.kind rfl
  · intro absent kind isNext
    obtain rfl := Option.some.inj isNext
    exact absent

mutual

/-- `Reads category tokens expression rest entries` says that a phrase at the
front of `tokens` stands for `expression` and is followed by `rest`.  `entries`
is the greatest number of assignments and factors, taken as productions, on a
path from the root of the derivation to a leaf. -/
inductive Reads :
    Category → List Token → Expr → List Token → (entries : Nat) → Prop
  | number {token rest} (isNumber : token.kind = .number) :
      Reads .factor (token :: rest) (.literal token.numeral token.span) rest
        1
  | name {token rest} (isName : IsName token)
      (noCall : nextKind? rest ≠ some .leftParenthesis) :
      Reads .factor (token :: rest) (.var token.asName) rest 1
  | parentheses {opening tokens expression closing rest entries}
      (opens : opening.kind = .leftParenthesis)
      (inner : Reads .assign tokens expression (closing :: rest) entries)
      (closes : closing.kind = .rightParenthesis) :
      Reads .factor (opening :: tokens) expression rest (entries + 1)
  | negation {sign tokens operand rest entries}
      (isMinus : sign.kind = .minus)
      (product : Reads (.chain .product) tokens operand rest entries)
      (ends : (Category.chain .product).Ends rest) :
      Reads .factor (sign :: tokens)
        (.binary .minus (.literal 0 sign.span) operand) rest (entries + 1)
  | emptyCall {callee opening closing rest} (isName : IsName callee)
      (opens : opening.kind = .leftParenthesis)
      (closes : closing.kind = .rightParenthesis) :
      Reads .factor (callee :: opening :: closing :: rest)
        (.call callee.asName [] closing.span) rest 1
  | call {callee opening tokens arguments closing rest entries}
      (isName : IsName callee) (opens : opening.kind = .leftParenthesis)
      (given : ReadsArguments tokens arguments (closing :: rest) entries)
      (closes : closing.kind = .rightParenthesis) :
      Reads .factor (callee :: opening :: tokens)
        (.call callee.asName arguments closing.span) rest (entries + 1)
  | operand {level tokens expression rest entries}
      (reads : Reads level.operand tokens expression rest entries)
      (ends : level.operand.Ends rest) :
      Reads (.chain level) tokens expression rest entries
  | operation {level tokens left sign between operator right rest entries
        rightEntries}
      (before : Reads (.chain level) tokens left (sign :: between) entries)
      (isOperator : (sign.kind, operator) ∈ level.operators)
      (reads : Reads level.operand between right rest rightEntries)
      (ends : level.operand.Ends rest) :
      Reads (.chain level) tokens (.binary operator left right) rest
        (max entries rightEntries)
  | test {tokens expression rest entries}
      (reads : Reads (.chain .comparison) tokens expression rest entries)
      (ends : (Category.chain .comparison).Ends rest) :
      Reads .conditional tokens expression rest entries
  | branches {tokens test question afterQuestion onTrue colon afterColon
        onFalse rest entries trueEntries falseEntries}
      (before : Reads .conditional tokens test (question :: afterQuestion)
        entries)
      (asks : question.kind = .question)
      (readsTrue : Reads .assign afterQuestion onTrue (colon :: afterColon)
        trueEntries)
      (separates : colon.kind = .colon)
      (readsFalse : Reads .assign afterColon onFalse rest falseEntries) :
      Reads .conditional tokens (.conditional test onTrue onFalse) rest
        (max (max entries trueEntries) falseEntries)
  | value {tokens expression rest entries}
      (reads : Reads .conditional tokens expression rest entries)
      (ends : Category.conditional.Ends rest)
      (noSign : nextKind? rest ≠ some .equal) :
      Reads .assign tokens expression rest (entries + 1)
  | store {tokens target sign afterSign value rest entries valueEntries}
      (readsTarget : Reads .conditional tokens target (sign :: afterSign)
        entries)
      (isSign : sign.kind = .equal)
      (readsValue : Reads .assign afterSign value rest valueEntries) :
      Reads .assign tokens (.assign target value) rest
        (max entries valueEntries + 1)

/-- The arguments of a call: one or more, with commas between them. -/
inductive ReadsArguments :
    List Token → List Expr → List Token → (entries : Nat) → Prop
  | one {tokens argument rest entries}
      (reads : Reads .assign tokens argument rest entries) :
      ReadsArguments tokens [argument] rest entries
  | more {tokens before comma between argument rest entries argumentEntries}
      (readsBefore : ReadsArguments tokens before (comma :: between) entries)
      (separates : comma.kind = .comma)
      (reads : Reads .assign between argument rest argumentEntries) :
      ReadsArguments tokens (before ++ [argument]) rest
        (max entries argumentEntries)

end

mutual

/-- A phrase consumes at least one token. -/
theorem Reads.rest_lt {category : Category} {tokens rest : List Token}
    {expression : Expr} {entries : Nat} :
    Reads category tokens expression rest entries →
      rest.length < tokens.length
  | .number _ | .name _ _ => Nat.lt_succ_self _
  | .parentheses _ inner _ => by
      have inner_lt := inner.rest_lt
      simp only [List.length_cons] at inner_lt ⊢
      omega
  | .negation _ product _ => Nat.lt_succ_of_lt product.rest_lt
  | .emptyCall _ _ _ => by
      simp only [List.length_cons]
      omega
  | .call _ _ given _ => by
      have given_lt := given.rest_lt
      simp only [List.length_cons] at given_lt ⊢
      omega
  | .operand reads _ | .test reads _ | .value reads _ _ => reads.rest_lt
  | .operation before _ reads _ => by
      have before_lt := before.rest_lt
      have right_lt := reads.rest_lt
      simp only [List.length_cons] at before_lt
      omega
  | .branches before _ readsTrue _ readsFalse => by
      have before_lt := before.rest_lt
      have true_lt := readsTrue.rest_lt
      have false_lt := readsFalse.rest_lt
      simp only [List.length_cons] at before_lt true_lt
      omega
  | .store readsTarget _ readsValue => by
      have target_lt := readsTarget.rest_lt
      have value_lt := readsValue.rest_lt
      simp only [List.length_cons] at target_lt
      omega

theorem ReadsArguments.rest_lt {tokens rest : List Token}
    {arguments : List Expr} {entries : Nat} :
    ReadsArguments tokens arguments rest entries →
      rest.length < tokens.length
  | .one reads => reads.rest_lt
  | .more readsBefore _ reads => by
      have before_lt := readsBefore.rest_lt
      have argument_lt := reads.rest_lt
      simp only [List.length_cons] at before_lt
      omega

end

/-- The tokens that an expression may begin with. -/
inductive BeginsExpression : List Token → Prop
  | number {token rest} (isNumber : token.kind = .number) :
      BeginsExpression (token :: rest)
  | name {token rest} (isName : IsName token) : BeginsExpression (token :: rest)
  | parenthesis {token rest} (opens : token.kind = .leftParenthesis) :
      BeginsExpression (token :: rest)
  | minus {token rest} (isMinus : token.kind = .minus) :
      BeginsExpression (token :: rest)

theorem Reads.begins {category : Category} {tokens rest : List Token}
    {expression : Expr} {entries : Nat} :
    Reads category tokens expression rest entries → BeginsExpression tokens
  | .number isNumber => .number isNumber
  | .name isName _ | .emptyCall isName _ _ | .call isName _ _ _ => .name isName
  | .parentheses opens _ _ => .parenthesis opens
  | .negation isMinus _ _ => .minus isMinus
  | .operand reads _ | .test reads _ | .value reads _ _ => reads.begins
  | .operation before _ _ _ | .branches before _ _ _ _ => before.begins
  | .store readsTarget _ _ => readsTarget.begins

theorem ReadsArguments.begins {tokens rest : List Token}
    {arguments : List Expr} {entries : Nat} :
    ReadsArguments tokens arguments rest entries → BeginsExpression tokens
  | .one reads => reads.begins
  | .more readsBefore _ _ => readsBefore.begins

/-- Nothing that closes or separates phrases begins an expression. -/
theorem BeginsExpression.nextKind?_ne {tokens : List Token}
    (begins : BeginsExpression tokens) :
    nextKind? tokens ≠ some .rightParenthesis := by
  cases begins with
  | number kind | parenthesis kind | minus kind => simp [kind]
  | name isName => simp [isName.kind]

theorem BeginsExpression.head_not_keyword {token : Token} {rest : List Token}
    (begins : BeginsExpression (token :: rest)) :
    token.isDefinitionKeyword = false := by
  cases begins with
  | number kind | parenthesis kind | minus kind =>
      simp [Token.isDefinitionKeyword, kind]
  | name isName => exact isName.not_keyword

/-- The names of parameters: one or more, with commas between them. -/
inductive ReadsNames : List Token → List Name → List Token → Prop
  | last {token rest} (isName : IsName token)
      (noComma : nextKind? rest ≠ some .comma) :
      ReadsNames (token :: rest) [token.asName] rest
  | more {token comma tokens names rest} (isName : IsName token)
      (separates : comma.kind = .comma)
      (reads : ReadsNames tokens names rest) :
      ReadsNames (token :: comma :: tokens) (token.asName :: names) rest

/-- The parameters of a function, of which there may be none. -/
inductive ReadsParameters : List Token → List Name → List Token → Prop
  | none {rest} (closes : nextKind? rest = some .rightParenthesis) :
      ReadsParameters rest [] rest
  | some {tokens names rest} (reads : ReadsNames tokens names rest) :
      ReadsParameters tokens names rest

/-- The statement that a whole request stands for, and the greatest number of
entries on a path of its derivation. -/
inductive Derives : List Token → Statement → (entries : Nat) → Prop
  | expression {tokens expression entries}
      (reads : Reads .assign tokens expression [] entries) :
      Derives tokens (.expression expression) entries
  | definition {keyword function opening tokens parameters closing sign
        afterSign body entries}
      (isKeyword : IsKeyword keyword)
      (isName : IsName function)
      (opens : opening.kind = .leftParenthesis)
      (readsParameters : ReadsParameters tokens parameters
        (closing :: sign :: afterSign))
      (closes : closing.kind = .rightParenthesis)
      (isSign : sign.kind = .equal)
      (readsBody : Reads .assign afterSign body [] entries) :
      Derives (keyword :: function :: opening :: tokens)
        (.definition ⟨function.asName, parameters, body⟩) entries

end Grammar
end Calculator
