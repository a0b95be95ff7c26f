import Calculator.Proofs.Grammar.Requests
import Calculator.Proofs.Token.Pieces

/-!
# Readings of other tokens

A reading only looks at the pieces of its tokens, and what follows it matters
only as far as it might continue the phrase.  So a reading carries over to other
tokens with the same pieces, and to tokens that go on with a closing
parenthesis.

If a phrase begins with a number, then a factor may be put in its place.  The
tree changes in its leftmost leaf only.
-/

namespace Calculator
namespace Grammar

/-- The second tokens have the pieces of the first and go on with the suffix. -/
inductive Extends (suffix : List Token) : List Token → List Token → Prop
  | done : Extends suffix [] suffix
  | next {token tokens other others} (piece_eq : other.piece = token.piece)
      (extends_rest : Extends suffix tokens others) :
      Extends suffix (token :: tokens) (other :: others)

namespace Extends

variable {suffix tokens others : List Token} {token : Token}

theorem of_pieces (pieces_eq : others.map Token.piece = tokens.map Token.piece)
    (suffix : List Token) : Extends suffix tokens (others ++ suffix) := by
  induction tokens generalizing others with
  | nil =>
      rw [List.map_eq_nil_iff.mp pieces_eq]
      exact .done
  | cons token tokens induction =>
      obtain ⟨other, others, rfl, piece_eq, pieces_eq⟩ :=
        List.map_eq_cons_iff.mp pieces_eq
      exact .next piece_eq (induction pieces_eq)

/-- The first token has its counterpart. -/
theorem uncons (extends_tokens : Extends suffix (token :: tokens) others) :
    ∃ other rest, others = other :: rest ∧ other.kind = token.kind ∧
      other.lexeme = token.lexeme ∧ Extends suffix tokens rest := by
  cases extends_tokens with
  | next piece_eq extends_rest =>
      obtain ⟨kind_eq, lexeme_eq⟩ := Prod.mk.inj piece_eq
      exact ⟨_, _, rfl, kind_eq, lexeme_eq, extends_rest⟩

theorem eq_suffix (extends_nil : Extends suffix [] others) :
    others = suffix := by
  cases extends_nil
  rfl

/-- The suffix does not continue a phrase. -/
def Closed (suffix : List Token) : Prop :=
  nextKind? suffix = none ∨ nextKind? suffix = some .rightParenthesis

theorem nextKind?_ne (extends_tokens : Extends suffix tokens others)
    (closed : Closed suffix) {kind : TokenKind}
    (different : kind ≠ .rightParenthesis)
    (notNext : nextKind? tokens ≠ some kind) :
    nextKind? others ≠ some kind := by
  cases extends_tokens with
  | done =>
      rcases closed with none_eq | some_eq
      · simp [none_eq]
      · rw [some_eq]
        intro same
        cases same
        exact different rfl
  | next piece_eq extends_rest =>
      rw [nextKind?_cons, (Prod.mk.inj piece_eq).1]
      exact notNext

theorem ends (extends_tokens : Extends suffix tokens others)
    (closed : Closed suffix) {category : Category}
    (ended : category.Ends tokens) : category.Ends others := by
  cases category with
  | factor => trivial
  | assign => trivial
  | conditional => exact extends_tokens.nextKind?_ne closed (by decide) ended
  | chain level =>
      intro kind isNext
      cases extends_tokens with
      | done =>
          rcases closed with none_eq | some_eq
          · rw [none_eq] at isNext
            cases isNext
          · rw [some_eq] at isNext
            cases isNext
            exact Level.operator?_eq_none_iff.mp (by cases level <;> rfl)
      | next piece_eq extends_rest =>
          refine ended kind ?_
          rw [← isNext, nextKind?_cons, nextKind?_cons,
            (Prod.mk.inj piece_eq).1]

end Extends

theorem IsName.of_eq {token other : Token} (isName : IsName token)
    (kind_eq : other.kind = token.kind)
    (lexeme_eq : other.lexeme = token.lexeme) : IsName other := by
  constructor
  · rw [kind_eq]
    exact isName.kind
  · rw [lexeme_eq]
    exact isName.lexeme

mutual

/-- A reading carries over to tokens that extend those that were read. -/
theorem Reads.extend {suffix : List Token} (closed : Extends.Closed suffix)
    {category : Category} {tokens rest others : List Token} {expression : Expr}
    {entries : Nat} :
    Reads category tokens expression rest entries →
      Extends suffix tokens others →
        ∃ other left, Reads category others other left entries ∧
          other.eraseSpans = expression.eraseSpans ∧ Extends suffix rest left
  | .number isNumber, extends_tokens => by
      obtain ⟨other, left, rfl, kind_eq, lexeme_eq, extends_rest⟩ :=
        extends_tokens.uncons
      refine ⟨_, _, .number (kind_eq.trans isNumber), ?_, extends_rest⟩
      simp only [Expr.eraseSpans, Token.numeral, lexeme_eq]
  | .name isName noCall, extends_tokens => by
      obtain ⟨other, left, rfl, kind_eq, lexeme_eq, extends_rest⟩ :=
        extends_tokens.uncons
      have noCall' := extends_rest.nextKind?_ne closed (by decide) noCall
      refine ⟨_, _, .name (isName.of_eq kind_eq lexeme_eq) noCall', ?_,
        extends_rest⟩
      simp only [Expr.eraseSpans, Token.asName, lexeme_eq]
  | .parentheses opens inner closes, extends_tokens => by
      obtain ⟨opening, _, rfl, kind_eq, _, extends_inner⟩ :=
        extends_tokens.uncons
      obtain ⟨other, _, reads, erased_eq, extends_close⟩ :=
        inner.extend closed extends_inner
      obtain ⟨closing, left, rfl, closing_eq, _, extends_rest⟩ :=
        extends_close.uncons
      exact ⟨other, left, .parentheses (kind_eq.trans opens) reads
        (closing_eq.trans closes), erased_eq, extends_rest⟩
  | .negation isMinus product ends, extends_tokens => by
      obtain ⟨sign, _, rfl, kind_eq, _, extends_operand⟩ :=
        extends_tokens.uncons
      obtain ⟨other, left, reads, erased_eq, extends_rest⟩ :=
        product.extend closed extends_operand
      refine ⟨_, left, .negation (kind_eq.trans isMinus) reads
        (extends_rest.ends closed ends), ?_, extends_rest⟩
      simp only [Expr.eraseSpans, erased_eq]
  | .emptyCall isName opens closes, extends_tokens => by
      obtain ⟨callee, _, rfl, kind_eq, lexeme_eq, extends_open⟩ :=
        extends_tokens.uncons
      obtain ⟨opening, _, rfl, opening_eq, _, extends_close⟩ :=
        extends_open.uncons
      obtain ⟨closing, left, rfl, closing_eq, _, extends_rest⟩ :=
        extends_close.uncons
      refine ⟨_, left, .emptyCall (isName.of_eq kind_eq lexeme_eq)
        (opening_eq.trans opens) (closing_eq.trans closes), ?_, extends_rest⟩
      simp only [Expr.eraseSpans, Token.asName, lexeme_eq]
  | .call isName opens given closes, extends_tokens => by
      obtain ⟨callee, _, rfl, kind_eq, lexeme_eq, extends_open⟩ :=
        extends_tokens.uncons
      obtain ⟨opening, _, rfl, opening_eq, _, extends_given⟩ :=
        extends_open.uncons
      obtain ⟨arguments, _, reads, erased_eq, extends_close⟩ :=
        given.extend closed extends_given
      obtain ⟨closing, left, rfl, closing_eq, _, extends_rest⟩ :=
        extends_close.uncons
      refine ⟨_, left, .call (isName.of_eq kind_eq lexeme_eq)
        (opening_eq.trans opens) reads (closing_eq.trans closes), ?_,
        extends_rest⟩
      simp only [Expr.eraseSpans, Token.asName, lexeme_eq, erased_eq]
  | .operand reads ends, extends_tokens => by
      obtain ⟨other, left, reads, erased_eq, extends_rest⟩ :=
        reads.extend closed extends_tokens
      exact ⟨other, left, .operand reads (extends_rest.ends closed ends),
        erased_eq, extends_rest⟩
  | .operation before isOperator reads ends, extends_tokens => by
      obtain ⟨first, _, readsFirst, first_eq, extends_sign⟩ :=
        before.extend closed extends_tokens
      obtain ⟨sign, _, rfl, sign_eq, _, extends_right⟩ := extends_sign.uncons
      obtain ⟨second, left, readsSecond, second_eq, extends_rest⟩ :=
        reads.extend closed extends_right
      refine ⟨_, left, .operation readsFirst (sign_eq ▸ isOperator) readsSecond
        (extends_rest.ends closed ends), ?_, extends_rest⟩
      simp only [Expr.eraseSpans, first_eq, second_eq]
  | .test reads ends, extends_tokens => by
      obtain ⟨other, left, reads, erased_eq, extends_rest⟩ :=
        reads.extend closed extends_tokens
      exact ⟨other, left, .test reads (extends_rest.ends closed ends),
        erased_eq, extends_rest⟩
  | .branches before asks readsTrue separates readsFalse, extends_tokens => by
      obtain ⟨test, _, readsTest, test_eq, extends_question⟩ :=
        before.extend closed extends_tokens
      obtain ⟨question, _, rfl, question_eq, _, extends_true⟩ :=
        extends_question.uncons
      obtain ⟨onTrue, _, readsTrue, true_eq, extends_colon⟩ :=
        readsTrue.extend closed extends_true
      obtain ⟨colon, _, rfl, colon_eq, _, extends_false⟩ :=
        extends_colon.uncons
      obtain ⟨onFalse, left, readsFalse, false_eq, extends_rest⟩ :=
        readsFalse.extend closed extends_false
      refine ⟨_, left, .branches readsTest (question_eq.trans asks) readsTrue
        (colon_eq.trans separates) readsFalse, ?_, extends_rest⟩
      simp only [Expr.eraseSpans, test_eq, true_eq, false_eq]
  | .value reads ends noSign, extends_tokens => by
      obtain ⟨other, left, reads, erased_eq, extends_rest⟩ :=
        reads.extend closed extends_tokens
      have noSign' := extends_rest.nextKind?_ne closed (by decide) noSign
      exact ⟨other, left, .value reads (extends_rest.ends closed ends) noSign',
        erased_eq, extends_rest⟩
  | .store readsTarget isSign readsValue, extends_tokens => by
      obtain ⟨target, _, readsTarget, target_eq, extends_sign⟩ :=
        readsTarget.extend closed extends_tokens
      obtain ⟨sign, _, rfl, sign_eq, _, extends_value⟩ := extends_sign.uncons
      obtain ⟨value, left, readsValue, value_eq, extends_rest⟩ :=
        readsValue.extend closed extends_value
      refine ⟨_, left, .store readsTarget (sign_eq.trans isSign) readsValue, ?_,
        extends_rest⟩
      simp only [Expr.eraseSpans, target_eq, value_eq]

theorem ReadsArguments.extend {suffix : List Token}
    (closed : Extends.Closed suffix) {tokens rest others : List Token}
    {arguments : List Expr} {entries : Nat} :
    ReadsArguments tokens arguments rest entries →
      Extends suffix tokens others →
        ∃ given left, ReadsArguments others given left entries ∧
          Expr.eraseAllSpans given = Expr.eraseAllSpans arguments ∧
            Extends suffix rest left
  | .one reads, extends_tokens => by
      obtain ⟨other, left, reads, erased_eq, extends_rest⟩ :=
        reads.extend closed extends_tokens
      refine ⟨_, left, .one reads, ?_, extends_rest⟩
      simp only [Expr.eraseAllSpans, erased_eq]
  | .more readsBefore separates reads, extends_tokens => by
      obtain ⟨given, _, readsBefore, before_eq, extends_comma⟩ :=
        readsBefore.extend closed extends_tokens
      obtain ⟨comma, _, rfl, comma_eq, _, extends_last⟩ := extends_comma.uncons
      obtain ⟨other, left, reads, erased_eq, extends_rest⟩ :=
        reads.extend closed extends_last
      refine ⟨_, left, .more readsBefore (comma_eq.trans separates) reads, ?_,
        extends_rest⟩
      simp only [Expr.eraseAllSpans_eq_map] at before_eq ⊢
      simp only [List.map_append, before_eq, List.map_cons, List.map_nil,
        erased_eq]

end

/-- The second tree is the first with another one in the place of its leftmost
leaf, a literal of the given value.  The leaf is evaluated before anything else:
no assignment and no call has it for a part. -/
inductive Leftmost (value : Int64) (inserted : Expr) : Expr → Expr → Prop
  | leaf {span} : Leftmost value inserted (.literal value span) inserted
  | binary {operator left other right}
      (inLeft : Leftmost value inserted left other) :
      Leftmost value inserted (.binary operator left right)
        (.binary operator other right)
  | conditional {test other onTrue onFalse}
      (inTest : Leftmost value inserted test other) :
      Leftmost value inserted (.conditional test onTrue onFalse)
        (.conditional other onTrue onFalse)

theorem Leftmost.permitted {value : Int64} {inserted first second : Expr}
    (leftmost : Leftmost value inserted first second)
    (insertedPermitted : inserted.Permitted) (permitted : first.Permitted) :
    second.Permitted := by
  induction leftmost with
  | leaf => exact insertedPermitted
  | binary inLeft induction =>
      rw [Expr.permitted_binary] at permitted ⊢
      exact ⟨induction permitted.1, permitted.2⟩
  | conditional inTest induction =>
      rw [Expr.permitted_conditional] at permitted ⊢
      exact ⟨induction permitted.1, permitted.2⟩

/-- A factor may take the place of the number that a phrase begins with. -/
theorem Reads.replace {number : Token} {after others front : List Token}
    {inserted : Expr} {insertedEntries : Nat}
    (isNumber : number.kind = .number)
    (extends_after : Extends [] after others)
    (factor : Reads .factor front inserted others insertedEntries)
    {category : Category} {tokens rest : List Token} {expression : Expr}
    {entries : Nat} :
    Reads category tokens expression rest entries →
      tokens = number :: after → expression.Permitted →
        ∃ other left entries', Reads category front other left entries' ∧
          Leftmost number.numeral inserted.eraseSpans expression.eraseSpans
            other.eraseSpans ∧
          Extends [] rest left
  | .number _, rfl, _ =>
    ⟨inserted, others, insertedEntries, factor, .leaf, extends_after⟩
  | .name isName _, rfl, _ | .emptyCall isName _ _, rfl, _
  | .call isName _ _ _, rfl, _ => by
      have kind := isName.kind
      rw [isNumber] at kind
      cases kind
  | .parentheses opens _ _, rfl, _ => by
      rw [isNumber] at opens
      cases opens
  | .negation isMinus _ _, rfl, _ => by
      rw [isNumber] at isMinus
      cases isMinus
  | .operand reads ends, tokens_eq, permitted => by
      obtain ⟨other, left, _, reads, leftmost, extends_rest⟩ :=
        Reads.replace isNumber extends_after factor reads tokens_eq permitted
      exact ⟨other, left, _, .operand reads (extends_rest.ends (.inl rfl) ends),
        leftmost, extends_rest⟩
  | .operation before isOperator reads ends, tokens_eq, permitted => by
      obtain ⟨permittedLeft, _⟩ := (Expr.permitted_binary ..).mp permitted
      obtain ⟨first, _, _, readsFirst, leftmost, extends_sign⟩ :=
        Reads.replace isNumber extends_after factor before tokens_eq
          permittedLeft
      obtain ⟨sign, _, rfl, sign_eq, _, extends_right⟩ := extends_sign.uncons
      obtain ⟨second, left, readsSecond, second_eq, extends_rest⟩ :=
        reads.extend (.inl rfl) extends_right
      refine ⟨_, left, _, .operation readsFirst (sign_eq ▸ isOperator)
        readsSecond (extends_rest.ends (.inl rfl) ends), ?_, extends_rest⟩
      simp only [Expr.eraseSpans, second_eq]
      exact .binary leftmost
  | .test reads ends, tokens_eq, permitted => by
      obtain ⟨other, left, _, reads, leftmost, extends_rest⟩ :=
        Reads.replace isNumber extends_after factor reads tokens_eq permitted
      exact ⟨other, left, _, .test reads (extends_rest.ends (.inl rfl) ends),
        leftmost, extends_rest⟩
  | .branches before asks readsTrue separates readsFalse, tokens_eq,
      permitted => by
      obtain ⟨permittedTest, _⟩ := (Expr.permitted_conditional ..).mp permitted
      obtain ⟨test, _, _, readsTest, leftmost, extends_question⟩ :=
        Reads.replace isNumber extends_after factor before tokens_eq
          permittedTest
      obtain ⟨question, _, rfl, question_eq, _, extends_true⟩ :=
        extends_question.uncons
      obtain ⟨onTrue, _, readsTrue, true_eq, extends_colon⟩ :=
        readsTrue.extend (.inl rfl) extends_true
      obtain ⟨colon, _, rfl, colon_eq, _, extends_false⟩ :=
        extends_colon.uncons
      obtain ⟨onFalse, left, readsFalse, false_eq, extends_rest⟩ :=
        readsFalse.extend (.inl rfl) extends_false
      refine ⟨_, left, _, .branches readsTest (question_eq.trans asks) readsTrue
        (colon_eq.trans separates) readsFalse, ?_, extends_rest⟩
      simp only [Expr.eraseSpans, true_eq, false_eq]
      exact .conditional leftmost
  | .value reads ends noSign, tokens_eq, permitted => by
      obtain ⟨other, left, _, reads, leftmost, extends_rest⟩ :=
        Reads.replace isNumber extends_after factor reads tokens_eq permitted
      have noSign' := extends_rest.nextKind?_ne (.inl rfl) (by decide) noSign
      exact ⟨other, left, _, .value reads (extends_rest.ends (.inl rfl) ends)
        noSign', leftmost, extends_rest⟩
  | .store readsTarget _ _, tokens_eq, permitted => by
      -- What begins with a number is no variable and cannot be assigned to.
      have ⟨isVariable, _⟩ := (Expr.permitted_assign ..).mp permitted
      obtain ⟨_, _, _, _, leftmost, _⟩ :=
        Reads.replace isNumber extends_after factor readsTarget tokens_eq
          permitted.target
      obtain ⟨name, target_eq⟩ := isVariable
      rw [target_eq] at leftmost
      cases leftmost

theorem reads_of_parse {tokens : List Token} {expression : Expr}
    (parsed : Statement.parse tokens = .ok (.expression expression)) :
    (∃ entries, Reads .assign tokens expression [] entries) ∧
      expression.Permitted := by
  have admits := admits_of_parse parsed
  obtain ⟨entries, _, derives⟩ := admits.derives
  cases derives with
  | expression reads => exact ⟨⟨entries, reads⟩, admits.permitted⟩

/-- If two requests are expressions and the second begins with a number, then
the first one in parentheses may be written in the place of that number, unless
this makes the request too deep. -/
theorem parse_parenthesized {first second firstAgain secondAgain : List Token}
    {opening closing number : Token} {initial continued : Expr}
    (readsInitial : Statement.parse first = .ok (.expression initial))
    (isNumber : number.kind = .number)
    (readsContinued :
      Statement.parse (number :: second) = .ok (.expression continued))
    (first_eq : firstAgain.map Token.piece = first.map Token.piece)
    (second_eq : secondAgain.map Token.piece = second.map Token.piece)
    (opens : opening.kind = .leftParenthesis)
    (closes : closing.kind = .rightParenthesis) :
    let outcome :=
      Statement.parse (opening :: (firstAgain ++ closing :: secondAgain))
    (∃ span limit, outcome = .error (.tooDeep span limit)) ∨
      ∃ whole, outcome = .ok (.expression whole) ∧
        Leftmost number.numeral initial.eraseSpans continued.eraseSpans
          whole.eraseSpans := by
  intro outcome
  obtain ⟨⟨_, initialReads⟩, initialPermitted⟩ := reads_of_parse readsInitial
  obtain ⟨⟨_, continuedReads⟩, continuedPermitted⟩ :=
    reads_of_parse readsContinued
  have closed : Extends.Closed (closing :: secondAgain) := by
    right
    rw [nextKind?_cons, closes]
  obtain ⟨inserted, _, insertedReads, inserted_eq, extends_close⟩ :=
    initialReads.extend closed (.of_pieces first_eq _)
  rw [extends_close.eq_suffix] at insertedReads
  have extends_second : Extends [] second secondAgain := by
    have extends_append := Extends.of_pieces second_eq []
    rwa [List.append_nil] at extends_append
  obtain ⟨whole, _, _, wholeReads, leftmost, extends_end⟩ :=
    Reads.replace isNumber extends_second
      (.parentheses opens insertedReads closes) continuedReads rfl
      continuedPermitted
  rw [extends_end.eq_suffix] at wholeReads
  rw [inserted_eq] at leftmost
  have wholePermitted : whole.Permitted := by
    rw [← Expr.permitted_eraseSpans] at initialPermitted continuedPermitted ⊢
    exact leftmost.permitted initialPermitted continuedPermitted
  rcases settles_parse wholeReads wholePermitted with
    ⟨_, accepted⟩ | ⟨_, refused⟩
  · exact .inr ⟨whole, accepted, leftmost⟩
  · exact .inl refused

end Grammar
end Calculator
