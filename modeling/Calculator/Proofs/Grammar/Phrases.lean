import Calculator.Proofs.Grammar.Reading

/-!
# Phrases

The language of the grammar, without trees and without any limit: which tokens
form a phrase of a category, and which form a sentence.

    define       'deffn' NAME '(' [NAME (',' NAME)*] ')' '=' assign | assign
    assign       conditional ['=' assign]
    conditional  comparison ('?' assign ':' assign)*
    comparison   sum (('<' | '<=' | '>' | '>=' | '==' | '!=') sum)*
    sum          product (('+' | '-') product)*
    product      factor (('*' | '/' | '%') factor)*
    factor       NUMBER | '(' assign ')' | '-' product
                 | NAME '(' [assign (',' assign)*] ')' | NAME

The productions leave open which of several nested phrases a token continues.
Greedy phrases are those in which it continues the innermost one.  Every phrase
can be taken apart greedily, so the language stays the same.
-/

namespace Calculator
namespace Grammar

mutual

/-- Tokens that form a phrase of a category. -/
inductive Phrase : Category → List Token → Prop
  | number {token} (isNumber : token.kind = .number) : Phrase .factor [token]
  | name {token} (isName : IsName token) : Phrase .factor [token]
  | parentheses {opening inside closing}
      (opens : opening.kind = .leftParenthesis) (inner : Phrase .assign inside)
      (closes : closing.kind = .rightParenthesis) :
      Phrase .factor (opening :: (inside ++ [closing]))
  | negation {sign operand} (isMinus : sign.kind = .minus)
      (product : Phrase (.chain .product) operand) :
      Phrase .factor (sign :: operand)
  | call {callee opening given closing} (isName : IsName callee)
      (opens : opening.kind = .leftParenthesis)
      (arguments : ArgumentsPhrase given)
      (closes : closing.kind = .rightParenthesis) :
      Phrase .factor (callee :: opening :: (given ++ [closing]))
  | operand {level tokens} (only : Phrase level.operand tokens) :
      Phrase (.chain level) tokens
  | operation {level left sign operator right}
      (first : Phrase level.operand left)
      (isOperator : (sign.kind, operator) ∈ level.operators)
      (later : Phrase (.chain level) right) :
      Phrase (.chain level) (left ++ sign :: right)
  | test {tokens} (only : Phrase (.chain .comparison) tokens) :
      Phrase .conditional tokens
  | branches {test question onTrue colon onFalse}
      (before : Phrase .conditional test) (asks : question.kind = .question)
      (whenTrue : Phrase .assign onTrue) (separates : colon.kind = .colon)
      (whenFalse : Phrase .assign onFalse) :
      Phrase .conditional (test ++ question :: (onTrue ++ colon :: onFalse))
  | value {tokens} (only : Phrase .conditional tokens) : Phrase .assign tokens
  | store {target sign value} (assigned : Phrase .conditional target)
      (isSign : sign.kind = .equal) (stored : Phrase .assign value) :
      Phrase .assign (target ++ sign :: value)

/-- The arguments of a call, of which there may be none. -/
inductive ArgumentsPhrase : List Token → Prop
  | none : ArgumentsPhrase []
  | some {tokens} (listed : ArgumentListPhrase tokens) : ArgumentsPhrase tokens

/-- One or more arguments with commas between them. -/
inductive ArgumentListPhrase : List Token → Prop
  | last {tokens} (argument : Phrase .assign tokens) : ArgumentListPhrase tokens
  | more {tokens comma later} (argument : Phrase .assign tokens)
      (separates : comma.kind = .comma) (rest : ArgumentListPhrase later) :
      ArgumentListPhrase (tokens ++ comma :: later)

end

/-- One or more names with commas between them. -/
inductive NameListPhrase : List Token → Prop
  | last {token} (isName : IsName token) : NameListPhrase [token]
  | more {token comma later} (isName : IsName token)
      (separates : comma.kind = .comma) (rest : NameListPhrase later) :
      NameListPhrase (token :: comma :: later)

/-- The parameters of a function, of which there may be none. -/
inductive ParametersPhrase : List Token → Prop
  | none : ParametersPhrase []
  | some {tokens} (listed : NameListPhrase tokens) : ParametersPhrase tokens

/-- Tokens that form a whole request. -/
inductive Sentence : List Token → Prop
  | expression {tokens} (value : Phrase .assign tokens) : Sentence tokens
  | definition {keyword function opening parameters closing sign body}
      (isKeyword : IsKeyword keyword)
      (isName : IsName function) (opens : opening.kind = .leftParenthesis)
      (declares : ParametersPhrase parameters)
      (closes : closing.kind = .rightParenthesis)
      (isSign : sign.kind = .equal) (yields : Phrase .assign body) :
      Sentence (keyword :: function :: opening ::
        (parameters ++ closing :: sign :: body))

/-- Tokens that more tokens complete to a sentence. -/
def Viable (tokens : List Token) : Prop :=
  ∃ more, Sentence (tokens ++ more)

/-! ### Greedy phrases -/

mutual

/-- Phrases in which every token continues the innermost phrase that it can.
A factor is not a negation here; a negation ends the product that it is in.  All
conditionals count as assignments. -/
inductive Greedy : Category → List Token → Prop
  | number {token} (isNumber : token.kind = .number) : Greedy .factor [token]
  | name {token} (isName : IsName token) : Greedy .factor [token]
  | parentheses {opening inside closing}
      (opens : opening.kind = .leftParenthesis) (inner : Greedy .assign inside)
      (closes : closing.kind = .rightParenthesis) :
      Greedy .factor (opening :: (inside ++ [closing]))
  | emptyCall {callee opening closing} (isName : IsName callee)
      (opens : opening.kind = .leftParenthesis)
      (closes : closing.kind = .rightParenthesis) :
      Greedy .factor [callee, opening, closing]
  | call {callee opening given closing} (isName : IsName callee)
      (opens : opening.kind = .leftParenthesis)
      (arguments : GreedyArguments given)
      (closes : closing.kind = .rightParenthesis) :
      Greedy .factor (callee :: opening :: (given ++ [closing]))
  | negation {sign operand} (isMinus : sign.kind = .minus)
      (product : Greedy (.chain .product) operand) :
      Greedy (.chain .product) (sign :: operand)
  | operand {level tokens} (only : Greedy level.operand tokens) :
      Greedy (.chain level) tokens
  | operation {level left sign operator right}
      (first : Greedy level.operand left)
      (isOperator : (sign.kind, operator) ∈ level.operators)
      (later : Greedy (.chain level) right) :
      Greedy (.chain level) (left ++ sign :: right)
  | value {tokens} (only : Greedy (.chain .comparison) tokens) :
      Greedy .assign tokens
  | branches {test question onTrue colon onFalse}
      (tested : Greedy (.chain .comparison) test)
      (asks : question.kind = .question) (whenTrue : Greedy .assign onTrue)
      (separates : colon.kind = .colon) (whenFalse : Greedy .assign onFalse) :
      Greedy .assign (test ++ question :: (onTrue ++ colon :: onFalse))
  | store {target sign value} (assigned : Greedy (.chain .comparison) target)
      (isSign : sign.kind = .equal) (stored : Greedy .assign value) :
      Greedy .assign (target ++ sign :: value)

/-- One or more greedy arguments with commas between them. -/
inductive GreedyArguments : List Token → Prop
  | last {tokens} (argument : Greedy .assign tokens) : GreedyArguments tokens
  | more {tokens comma later} (argument : Greedy .assign tokens)
      (separates : comma.kind = .comma) (rest : GreedyArguments later) :
      GreedyArguments (tokens ++ comma :: later)

end

namespace Greedy

/-- Greedy chains may be joined by an operator of their level. -/
theorem join {level : Level} {left right : List Token} {sign : Token}
    {operator : Operator}
    (isOperator : (sign.kind, operator) ∈ level.operators)
    (later : Greedy (.chain level) right) :
    Greedy (.chain level) left →
      Greedy (.chain level) (left ++ sign :: right)
  | .operand only => .operation only isOperator later
  | .operation first isOperator' rest => by
      rw [List.append_assoc, List.cons_append]
      exact .operation first isOperator' (join isOperator later rest)
  | .negation isMinus product =>
      .negation isMinus (join isOperator later product)
termination_by left.length
decreasing_by
  all_goals
    simp only [List.length_append, List.length_cons]
    omega

/-- What may follow a comparison to form an assignment may follow an
assignment as well. -/
theorem extend {more : List Token}
    (follows : ∀ test, Greedy (.chain .comparison) test →
      Greedy .assign (test ++ more)) {before : List Token} :
    Greedy .assign before → Greedy .assign (before ++ more)
  | .value only => follows _ only
  | .branches tested asks whenTrue separates whenFalse => by
      simp only [List.append_assoc, List.cons_append]
      exact .branches tested asks whenTrue separates (extend follows whenFalse)
  | .store assigned isSign stored => by
      rw [List.append_assoc, List.cons_append]
      exact .store assigned isSign (extend follows stored)
termination_by before.length
decreasing_by
  all_goals
    simp only [List.length_append, List.length_cons]
    omega

end Greedy

/-- The category that a phrase has when it is taken apart greedily. -/
def Category.greedy : Category → Category
  | .factor => .chain .product
  | .chain level => .chain level
  | .conditional | .assign => .assign

mutual

/-- Every phrase can be taken apart greedily. -/
theorem Phrase.greedy {category : Category} {tokens : List Token} :
    Phrase category tokens → Greedy category.greedy tokens
  | .number isNumber => .operand (.number isNumber)
  | .name isName => .operand (.name isName)
  | .parentheses opens inner closes =>
      .operand (.parentheses opens inner.greedy closes)
  | .negation isMinus product => .negation isMinus product.greedy
  | .call isName opens .none closes =>
      .operand (.emptyCall isName opens closes)
  | .call isName opens (.some listed) closes =>
      .operand (.call isName opens listed.greedy closes)
  | @Phrase.operand .product _ only => only.greedy
  | @Phrase.operand .sum _ only => .operand only.greedy
  | @Phrase.operand .comparison _ only => .operand only.greedy
  | @Phrase.operation .product _ _ _ _ first isOperator later =>
      .join isOperator later.greedy first.greedy
  | @Phrase.operation .sum _ _ _ _ first isOperator later =>
      .operation first.greedy isOperator later.greedy
  | @Phrase.operation .comparison _ _ _ _ first isOperator later =>
      .operation first.greedy isOperator later.greedy
  | .test only => .value only.greedy
  | .branches before asks whenTrue separates whenFalse =>
      .extend (fun _ tested => .branches tested asks whenTrue.greedy separates
        whenFalse.greedy) before.greedy
  | .value only => only.greedy
  | .store assigned isSign stored =>
      .extend (fun _ target => .store target isSign stored.greedy)
        assigned.greedy

theorem ArgumentListPhrase.greedy {tokens : List Token} :
    ArgumentListPhrase tokens → GreedyArguments tokens
  | .last argument => .last argument.greedy
  | .more argument separates rest => .more argument.greedy separates rest.greedy

end

end Grammar
end Calculator
