import Calculator.Proofs.Grammar.FollowSets
import Calculator.Proofs.Grammar.Names

/-!
# Chains of conditionals

What stands in front of a question mark is a comparison, since the last branch
of a conditional would have taken the question mark.  A chain of conditionals
nests in its last branches, and a conditional is the test of another one only in
parentheses.
-/

namespace Calculator

namespace Grammar

/-- No question mark follows an assignment. -/
theorem Reads.next_ne_question {tokens rest : List Token} {expression : Expr}
    {entries : Nat} :
    Reads .assign tokens expression rest entries →
      nextKind? rest ≠ some .question
  | .value _ ends _ => ends
  | .store _ _ readsValue => readsValue.next_ne_question

/-- What stands in front of a question mark is a comparison. -/
theorem Reads.comparison_of_question {tokens rest : List Token}
    {expression : Expr} {question : Token} {entries : Nat}
    (reads : Reads .conditional tokens expression (question :: rest) entries)
    (asks : question.kind = .question) :
    Reads (.chain .comparison) tokens expression (question :: rest) entries := by
  cases reads with
  | test reads _ => exact reads
  | branches _ _ _ _ readsFalse =>
      have noQuestion := readsFalse.next_ne_question
      rw [nextKind?_cons, asks] at noQuestion
      exact absurd rfl noQuestion

/-- Steps that begin alike go on alike if they do so from all that their
beginning may leave. -/
theorem Step.bind_congr_of_ok {Result Result' : Type} {first : Step Result}
    {next next' : Result → Step Result'} {tokens : List Token}
    (same : ∀ result rest, first tokens = .ok (result, rest) →
      next result rest = next' result rest) :
    (first >>= next) tokens = (first >>= next') tokens := by
  rw [Step.bind_apply, Step.bind_apply]
  cases read : first tokens with
  | error error => rfl
  | ok reached => exact same reached.1 reached.2 read

/-- How a conditional goes on after its test if only one question mark is looked
for. -/
def conditionalStepOnce (branch : Rule) (test : Measured) : Step Measured :=
  Step.branch (only .question) (pure test) fun _ _ => do
    let onTrue ← step branch
    let _ ← Step.expect .colon "':'"
    let onFalse ← step branch
    let height ← Step.lift (grow
      (max (max test.height onTrue.height) onFalse.height)
      onFalse.expression.span)
    pure ⟨.conditional test.expression onTrue.expression onFalse.expression,
      height⟩

theorem next_ne_question_of_assign {room : Nat} {tokens rest : List Token}
    {measured : Measured}
    (read : step (assign room) tokens = .ok (measured, rest)) :
    nextKind? rest ≠ some .question := by
  rw [step] at read
  cases result : assign room tokens with
  | error error =>
      rw [result] at read
      cases read
  | ok parsed =>
      rw [result] at read
      cases read
      obtain ⟨⟨⟨entries, -, reads⟩, -⟩, -⟩ := sound_assign room result
      exact reads.next_ne_question

theorem conditionalStep_eq_once (room : Nat) (test : Measured) :
    conditionalStep (assign room) test =
      conditionalStepOnce (assign room) test := by
  rw [conditionalStep_eq, conditionalStepOnce]
  funext tokens
  rw [branch_only, branch_only]
  cases take? .question tokens with
  | none => rfl
  | some question =>
      apply Step.bind_congr_of_ok
      intro onTrue afterTrue _
      apply Step.bind_congr_of_ok
      intro colon afterColon _
      apply Step.bind_congr_of_ok
      intro onFalse rest falseRead
      have noQuestion := next_ne_question_of_assign falseRead
      apply Step.bind_congr_of_ok
      intro height afterLift grown
      rw [Step.rest_eq_of_lift grown, conditionalStep_eq, branch_only,
        take?_eq_none.mpr noQuestion]

/-- The expression is read off tokens between two parentheses. -/
inductive Parenthesized : List Token → Expr → List Token → Prop
  | mk {opening inside expression closing rest entries}
      (opens : opening.kind = .leftParenthesis)
      (inner : Reads .assign (inside ++ closing :: rest) expression
        (closing :: rest) entries)
      (closes : closing.kind = .rightParenthesis) :
      Parenthesized (opening :: (inside ++ closing :: rest)) expression rest

/-- No level of operators builds a conditional. -/
theorem Reads.factor_of_comparison {tokens rest : List Token}
    {test onTrue onFalse : Expr} {entries : Nat}
    (reads : Reads (.chain .comparison) tokens
      (.conditional test onTrue onFalse) rest entries) :
    Reads .factor tokens (.conditional test onTrue onFalse) rest entries := by
  cases reads with
  | operand isSum _ =>
  cases isSum with
  | operand isProduct _ =>
  cases isProduct with
  | operand isFactor _ => exact isFactor

/-- A comparison that stands for a conditional is nothing but that conditional
in parentheses. -/
theorem Reads.parenthesized {tokens rest : List Token}
    {test onTrue onFalse : Expr} {entries : Nat}
    (reads : Reads (.chain .comparison) tokens
      (.conditional test onTrue onFalse) rest entries) :
    Parenthesized tokens (.conditional test onTrue onFalse) rest := by
  cases reads.factor_of_comparison with
  | parentheses opens inner closes =>
      obtain ⟨inside, rfl⟩ := inner.rest_suffix
      exact .mk opens inner closes

/-- A conditional is read somewhere in the tokens: a comparison is its test, and
its last branch takes all that it can.  If the test is a conditional itself, then
it is in parentheses. -/
inductive ReadsConditional :
    List Token → (test onTrue onFalse : Expr) → Prop
  | mk {tokens here test question afterQuestion onTrue colon afterColon onFalse
        rest testEntries trueEntries falseEntries}
      (isSuffix : here <:+ tokens)
      (readsTest : Reads (.chain .comparison) here test
        (question :: afterQuestion) testEntries)
      (inParentheses : ∀ test' onTrue' onFalse',
        test = .conditional test' onTrue' onFalse' →
          Parenthesized here test (question :: afterQuestion))
      (asks : question.kind = .question)
      (readsTrue : Reads .assign afterQuestion onTrue (colon :: afterColon)
        trueEntries)
      (separates : colon.kind = .colon)
      (readsFalse : Reads .assign afterColon onFalse rest falseEntries)
      (ended : nextKind? rest ≠ some .question) :
      ReadsConditional tokens test onTrue onFalse

theorem ReadsConditional.mono {tokens more : List Token}
    {test onTrue onFalse : Expr}
    (reads : ReadsConditional tokens test onTrue onFalse)
    (isSuffix : tokens <:+ more) : ReadsConditional more test onTrue onFalse := by
  obtain ⟨isSuffix', readsTest, inParentheses, asks, readsTrue, separates,
    readsFalse, ended⟩ := reads
  exact .mk (isSuffix'.trans isSuffix) readsTest inParentheses asks readsTrue
    separates readsFalse ended

mutual

/-- Every conditional in a tree is read somewhere in its tokens. -/
theorem Reads.conditional_of_mem {test onTrue onFalse : Expr}
    {category : Category} {tokens rest : List Token} {expression : Expr}
    {entries : Nat} :
    Reads category tokens expression rest entries →
      .conditional test onTrue onFalse ∈ expression.nodes →
        ReadsConditional tokens test onTrue onFalse
  | .number _, member | .name _ _, member => by simp [Expr.nodes] at member
  | .parentheses _ inner _, member =>
      (inner.conditional_of_mem member).mono (List.suffix_cons ..)
  | .negation _ product _, member => by
      simp only [Expr.nodes, List.cons_append, List.nil_append, List.mem_cons,
        reduceCtorEq, false_or] at member
      exact (product.conditional_of_mem member).mono (List.suffix_cons ..)
  | .emptyCall _ _ _, member => by simp [Expr.nodes, Expr.nodesOfAll] at member
  | .call _ _ given _, member => by
      rw [Expr.nodes, List.mem_cons] at member
      rcases member with same | inside
      · cases same
      · obtain ⟨argument, isGiven, member⟩ := Expr.mem_nodesOfAll.mp inside
        exact (given.conditional_of_mem argument isGiven member).mono
          ⟨[_, _], rfl⟩
  | .operand reads _, member | .test reads _, member
  | .value reads _ _, member => reads.conditional_of_mem member
  | .operation before _ reads _, member => by
      rw [Expr.nodes, List.mem_cons, List.mem_append] at member
      rcases member with same | inLeft | inRight
      · cases same
      · exact before.conditional_of_mem inLeft
      · exact (reads.conditional_of_mem inRight).mono
          ((List.suffix_cons ..).trans before.rest_suffix)
  | .branches before asks readsTrue separates readsFalse, member => by
      rw [Expr.nodes, List.mem_cons, List.mem_append, List.mem_append]
        at member
      have afterQuestion := (List.suffix_cons ..).trans before.rest_suffix
      have afterColon := (List.suffix_cons ..).trans readsTrue.rest_suffix
      rcases member with same | inTest | inTrue | inFalse
      · cases same
        have readsTest := before.comparison_of_question asks
        refine .mk (List.suffix_refl _) readsTest ?_ asks readsTrue separates
          readsFalse readsFalse.next_ne_question
        rintro _ _ _ rfl
        exact readsTest.parenthesized
      · exact before.conditional_of_mem inTest
      · exact (readsTrue.conditional_of_mem inTrue).mono afterQuestion
      · exact (readsFalse.conditional_of_mem inFalse).mono
          (afterColon.trans afterQuestion)
  | .store readsTarget _ readsValue, member => by
      rw [Expr.nodes, List.mem_cons, List.mem_append] at member
      rcases member with same | inTarget | inValue
      · cases same
      · exact readsTarget.conditional_of_mem inTarget
      · exact (readsValue.conditional_of_mem inValue).mono
          ((List.suffix_cons ..).trans readsTarget.rest_suffix)

theorem ReadsArguments.conditional_of_mem {test onTrue onFalse : Expr}
    {tokens rest : List Token} {arguments : List Expr} {entries : Nat} :
    ReadsArguments tokens arguments rest entries →
      ∀ argument ∈ arguments,
        .conditional test onTrue onFalse ∈ argument.nodes →
          ReadsConditional tokens test onTrue onFalse
  | .one reads, argument, given, member => by
      cases List.mem_singleton.mp given
      exact reads.conditional_of_mem member
  | .more readsBefore _ reads, argument, given, member => by
      rcases List.mem_append.mp given with isBefore | isLast
      · exact readsBefore.conditional_of_mem argument isBefore member
      · cases List.mem_singleton.mp isLast
        exact (reads.conditional_of_mem member).mono
          ((List.suffix_cons ..).trans readsBefore.rest_suffix)

end

theorem Derives.conditional_of_mem {test onTrue onFalse : Expr}
    {tokens : List Token} {statement : Statement} {entries : Nat}
    (derives : Derives tokens statement entries)
    (member : .conditional test onTrue onFalse ∈ statement.body.nodes) :
    ReadsConditional tokens test onTrue onFalse := by
  cases derives with
  | expression reads => exact reads.conditional_of_mem member
  | definition _ _ _ readsParameters _ _ readsBody =>
      have isSuffix := readsParameters.rest_suffix
      exact (readsBody.conditional_of_mem member).mono
        (((List.suffix_append [_, _] _).trans isSuffix).trans ⟨[_, _, _], rfl⟩)

end Grammar

namespace Parser

open Grammar

/-- An assignment leaves no question mark, equal sign or operator, whatever state
the machine was in.  So a conditional takes one question mark at most: looking
for another one changes nothing, for the machine as for the grammar.  In what a
request stands for, every conditional has a comparison as its test; chained
conditionals nest in their last branches, unless the test has parentheses around
it. -/
theorem conditional_asks_once :
    (∀ depth start expression final,
      run depth .assign start = some (.ok expression, final) →
        ∀ token rest, final.parser.sequence.remaining = token :: rest →
          token.kind ≠ .question ∧ token.kind ≠ .equal ∧
            ∀ level : Level, level.operator? token.kind = none) ∧
    (∀ depth test tallest,
      conditionalFrom (depth + 2) test tallest =
        conditionalOnce (depth + 1) test tallest) ∧
    (∀ room,
      step (Grammar.conditional (Grammar.assign room) (Grammar.factor room)) =
        step (Grammar.comparison (Grammar.factor room)) >>=
          conditionalStepOnce (Grammar.assign room)) ∧
    ∀ tokens statement, Statement.parse tokens = .ok statement →
      ∀ test onTrue onFalse,
        .conditional test onTrue onFalse ∈ statement.body.nodes →
          ReadsConditional tokens test onTrue onFalse := by
  refine ⟨?_, conditionalFrom_eq_once, fun room => ?_, ?_⟩
  · intro depth start expression final ran token rest remaining_eq
    have ends := ends_of_run depth .assign start expression final ran
    have isNext : nextKind? final.remaining = some token.kind :=
      congrArg nextKind? remaining_eq
    refine ⟨?_, ?_, fun level =>
      ends.operator?_eq_none (by decide) level isNext⟩
    · rintro same
      exact ends.nextKind?_ne (by decide) (same ▸ isNext)
    · rintro same
      exact ends.nextKind?_ne (by decide) (same ▸ isNext)
  · rw [step_conditional, funext (conditionalStep_eq_once room)]
  · intro tokens statement parsed test onTrue onFalse member
    obtain ⟨entries, -, derives⟩ := (admits_of_parse parsed).derives
    exact derives.conditional_of_mem member

set_option maxRecDepth 10000 in
/-- The test needs its parentheses, the last branch does not. -/
theorem conditional_asks_once_in_chain :
    let tokens : List Token :=
      [⟨.leftParenthesis, "(", .columns 1 1 1⟩, ⟨.name, "x", .columns 1 2 2⟩,
        ⟨.question, "?", .columns 1 3 3⟩, ⟨.number, "1", .columns 1 4 4⟩,
        ⟨.colon, ":", .columns 1 5 5⟩, ⟨.number, "2", .columns 1 6 6⟩,
        ⟨.rightParenthesis, ")", .columns 1 7 7⟩,
        ⟨.question, "?", .columns 1 8 8⟩, ⟨.number, "3", .columns 1 9 9⟩,
        ⟨.colon, ":", .columns 1 10 10⟩, ⟨.name, "y", .columns 1 11 11⟩,
        ⟨.question, "?", .columns 1 12 12⟩, ⟨.number, "4", .columns 1 13 13⟩,
        ⟨.colon, ":", .columns 1 14 14⟩, ⟨.number, "5", .columns 1 15 15⟩]
    let first : Expr := .conditional (.var ⟨"x", .columns 1 2 2⟩)
      (.literal 1 (.columns 1 4 4)) (.literal 2 (.columns 1 6 6))
    let second : Expr := .literal 3 (.columns 1 9 9)
    let third : Expr := .conditional (.var ⟨"y", .columns 1 11 11⟩)
      (.literal 4 (.columns 1 13 13)) (.literal 5 (.columns 1 15 15))
    Statement.parse tokens =
        .ok (.expression (.conditional first second third)) ∧
      ReadsConditional tokens first second third := by
  intro tokens first second third
  have parsed : Statement.parse tokens =
      .ok (.expression (.conditional first second third)) := by
    cbv
  obtain ⟨-, -, -, reads⟩ := conditional_asks_once
  refine ⟨parsed, reads tokens _ parsed first second third ?_⟩
  simp [Statement.body, Expr.nodes]

end Parser
end Calculator
