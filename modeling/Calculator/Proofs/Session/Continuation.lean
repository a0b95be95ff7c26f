import Calculator.Proofs.Evaluator.Places
import Calculator.Proofs.Grammar.Replacement
import Calculator.Proofs.Session.Requests

/-!
# Going on from the previous value

A request that does not begin with an operand goes on from the value of the
request before.  It might as well have been written behind that request, with
parentheses around it: the value takes the place of the leftmost leaf of the
tree, which is what is evaluated first.
-/

namespace Calculator

/-- A tree with another one in its leftmost leaf is evaluated as the two are one
after the other. -/
theorem Grammar.Leftmost.evaluates {functions : FunctionTable} {value : Int64}
    {inserted first second : Expr} {start before after : Environment}
    {final : Int64} {height bodies insertedHeight insertedBodies : Nat}
    (leftmost : Leftmost value inserted first second)
    (evaluatesInserted : Evaluates functions inserted start (.ok value) before
      insertedHeight insertedBodies)
    (evaluatesFirst : Evaluates functions first before (.ok final) after height
      bodies) :
    ∃ height bodies,
      Evaluates functions second start (.ok final) after height bodies := by
  induction leftmost generalizing final after height bodies with
  | leaf =>
      cases evaluatesFirst
      exact ⟨_, _, evaluatesInserted⟩
  | binary inLeft induction =>
      cases evaluatesFirst with
      | operation evaluatesLeft evaluatesRight result_eq =>
          obtain ⟨_, _, evaluatesOther⟩ := induction evaluatesLeft
          exact ⟨_, _, .operation evaluatesOther evaluatesRight result_eq⟩
  | conditional inTest induction =>
      cases evaluatesFirst with
      | onTrue evaluatesTest nonzero branch =>
          obtain ⟨_, _, evaluatesOther⟩ := induction evaluatesTest
          exact ⟨_, _, .onTrue evaluatesOther nonzero branch⟩
      | onFalse evaluatesTest branch =>
          obtain ⟨_, _, evaluatesOther⟩ := induction evaluatesTest
          exact ⟨_, _, .onFalse evaluatesOther branch⟩

namespace Evaluator

variable {functions : FunctionTable} {limits : Limits}

/-- An expression that has a value also has it without places. -/
theorem derives_of_value {expression : Expr} {before : Environment}
    {value : Int64}
    (isValue : ((fresh functions limits).evaluate expression before).outcome =
      .ok value) :
    DerivesWithin functions.eraseSpans limits expression.eraseSpans before
      (.ok value)
      ((fresh functions limits).evaluate expression before).environment := by
  have cases := evaluate_cases functions.eraseSpans limits expression.eraseSpans
    before
  rw [evaluate_eraseSpans, isValue] at cases
  rcases cases with ⟨error, isError, _⟩ | derives
  · cases isError
  · exact derives

/-- Evaluating one expression and then another that begins with its value is
evaluating both at once, unless this hits a limit. -/
theorem evaluate_leftmost {initial continued whole : Expr}
    {value final : Int64} {start : Environment}
    (leftmost : Grammar.Leftmost value initial.eraseSpans continued.eraseSpans
      whole.eraseSpans) :
    let first := (fresh functions limits).evaluate initial start
    let second := (fresh functions limits).evaluate continued first.environment
    let result := (fresh functions limits).evaluate whole start
    first.outcome = .ok value → second.outcome = .ok final →
      (result.outcome = .ok final ∧ result.environment = second.environment) ∨
        ∃ error, result.outcome = .error error ∧
          error.kind = .callDepthExceeded := by
  intro first second result firstValue secondValue
  obtain ⟨_, _, _, _, evaluatesInserted⟩ := derives_of_value firstValue
  obtain ⟨_, _, _, _, evaluatesContinued⟩ := derives_of_value secondValue
  obtain ⟨_, _, evaluatesWhole⟩ :=
    leftmost.evaluates evaluatesInserted evaluatesContinued
  have cases :=
    evaluate_cases functions.eraseSpans limits whole.eraseSpans start
  rw [evaluate_eraseSpans] at cases
  change (∃ error, result.outcome.mapError RuntimeError.eraseSpan =
    .error error ∧ _) ∨ DerivesWithin _ _ _ _
      (result.outcome.mapError RuntimeError.eraseSpan) result.environment
    at cases
  rcases cases with ⟨error, isError, reached⟩ | ⟨_, _, _, _, derivation⟩
  · right
    cases outcome_eq : result.outcome with
    | ok other =>
        rw [outcome_eq] at isError
        cases isError
    | error other =>
        rw [outcome_eq] at isError
        cases isError
        refine ⟨other, rfl, ?_⟩
        rw [← other.kind_eraseSpan]
        exact RuntimeError.kind_of_isLimitOf reached
  · left
    obtain ⟨outcome_eq, after_eq⟩ := derivation.unique evaluatesWhole
    refine ⟨?_, after_eq⟩
    cases result_eq : result.outcome with
    | ok other =>
        rw [result_eq] at outcome_eq
        exact outcome_eq
    | error other =>
        rw [result_eq] at outcome_eq
        cases outcome_eq

end Evaluator

namespace Session

/-- The tokens of a text in parentheses and of what is written behind it. -/
theorem scan_parenthesized {text continuation : String}
    {tokens later : List Token} (scanned : Token.scan 1 text = .ok tokens)
    (scannedNext : Token.scan 1 continuation = .ok later) :
    ∃ opening again closing behind,
      Token.scan 1 ("(" ++ text ++ ")" ++ continuation) =
        .ok (opening :: (again ++ closing :: behind)) ∧
      opening.kind = .leftParenthesis ∧ closing.kind = .rightParenthesis ∧
      again.map Token.piece = tokens.map Token.piece ∧
      behind.map Token.piece = later.map Token.piece := by
  have cuts := (Token.cuts_of_scan scanned).append .rightParenthesis
    (.rightParenthesis (Token.cuts_of_scan scannedNext))
  have characters_eq : ("(" ++ text ++ ")" ++ continuation).toList =
      '(' :: (text.toList ++ ')' :: continuation.toList) := by
    simp [String.toList_append]
  have whole := Cuts.leftParenthesis cuts
  rw [← characters_eq] at whole
  obtain ⟨all, scannedAll, pieces_eq⟩ := Token.scan_of_cuts whole 1
  obtain ⟨opening, rest, rfl, opening_eq, rest_eq⟩ :=
    List.map_eq_cons_iff.mp pieces_eq
  obtain ⟨again, rest, rfl, again_eq, rest_eq⟩ :=
    List.map_eq_append_iff.mp rest_eq
  obtain ⟨closing, behind, rfl, closing_eq, behind_eq⟩ :=
    List.map_eq_cons_iff.mp rest_eq
  exact ⟨opening, again, closing, behind, scannedAll,
    (Prod.mk.inj opening_eq).1, (Prod.mk.inj closing_eq).1, again_eq, behind_eq⟩

/-- Going on from the value of a request is the same as writing the continuation
behind the request in parentheses, except that this may exceed a limit. -/
theorem evaluate_parenthesized {session between after : Session}
    {text continuation : String} {first next : Token} {rest later : List Token}
    {value final : Int64}
    (scanned : Token.scan 1 text = .ok (first :: rest))
    (begins : first.kind.beginsOperand = true)
    (scannedNext : Token.scan 1 continuation = .ok (next :: later))
    (goesOn : next.kind.beginsOperand = false)
    (answer : session.evaluate text = (.ok (.value value), between))
    (answerNext : between.evaluate continuation = (.ok (.value final), after)) :
    let whole := session.evaluate ("(" ++ text ++ ")" ++ continuation)
    whole = (.ok (.value final), after) ∨
      ∃ error, whole = (.error error, session) ∧
        ((∃ span limit, error = .ofSyntax (.tooDeep span limit)) ∨
          error.kind = .callDepthExceeded) := by
  intro whole
  obtain ⟨granted, initial, readsInitial, firstValue, rfl⟩ :=
    evaluate_eq_value answer
  obtain ⟨-, continued, readsContinued, secondValue, rfl⟩ :=
    evaluate_eq_value answerNext
  rw [read_of_beginsOperand session scanned begins] at readsInitial
  rw [read_of_not_beginsOperand _ scannedNext goesOn] at readsContinued
  obtain ⟨opening, again, closing, behind, scannedWhole, opens, closes,
    again_eq, behind_eq⟩ := scan_parenthesized scanned scannedNext
  have beginsWhole : opening.kind.beginsOperand = true := by
    rw [opens]
    rfl
  have read_eq := read_of_beginsOperand session scannedWhole beginsWhole
  rcases Grammar.parse_parenthesized readsInitial rfl readsContinued again_eq
      behind_eq opens closes with
    ⟨span, limit, refused⟩ | ⟨expression, accepted, leftmost⟩
  · right
    refine ⟨.ofSyntax (.tooDeep span limit), ?_, .inl ⟨span, limit, rfl⟩⟩
    simp only [whole, evaluate, granted, if_true, read_eq, refused]
  · rw [accepted] at read_eq
    have whole_eq := evaluate_of_read granted read_eq
    rw [Token.numeral_ofValue] at leftmost
    rcases Evaluator.evaluate_leftmost leftmost firstValue secondValue with
      ⟨outcome_eq, environment_eq⟩ | ⟨error, outcome_eq, kind_eq⟩
    · left
      simp only [whole, whole_eq, outcome_eq, environment_eq]
    · right
      refine ⟨.ofRuntime error, ?_, .inr kind_eq⟩
      simp only [whole, whole_eq, outcome_eq]

set_option maxRecDepth 10000 in
/-- The request `x=9223372036854775807+1` wraps around to the least value, and
`-1` goes on from there. -/
theorem evaluate_least_parenthesized :
    let after : Session :=
      { environment := Environment.empty.assign "x" Int64.minValue
        previous := Int64.maxValue }
    let whole := Session.evaluate {}
      ("(" ++ "x=9223372036854775807+1" ++ ")" ++ "-1")
    whole = (.ok (.value Int64.maxValue), after) ∨
      ∃ error, whole = (.error error, {}) ∧
        ((∃ span limit, error = .ofSyntax (.tooDeep span limit)) ∨
          error.kind = .callDepthExceeded) := by
  have scanned : Token.scan 1 "x=9223372036854775807+1" =
      .ok [⟨.name, "x", .columns 1 1 1⟩, ⟨.equal, "=", .columns 1 2 2⟩,
        ⟨.number, "9223372036854775807", .columns 1 3 21⟩,
        ⟨.plus, "+", .columns 1 22 22⟩, ⟨.number, "1", .columns 1 23 23⟩] := by
    decide +kernel
  have scannedNext : Token.scan 1 "-1" =
      .ok [⟨.minus, "-", .columns 1 1 1⟩, ⟨.number, "1", .columns 1 2 2⟩] := by
    decide +kernel
  let between : Session :=
    { environment := Environment.empty.assign "x" Int64.minValue
      previous := Int64.minValue }
  have answer : Session.evaluate {} "x=9223372036854775807+1" =
      (.ok (.value Int64.minValue), between) := by
    have read_eq : Session.read {} "x=9223372036854775807+1" =
        .ok (.expression (.assign (.var ⟨"x", .columns 1 1 1⟩)
          (.binary .plus (.literal Int64.maxValue (.columns 1 3 21))
            (.literal 1 (.columns 1 23 23))))) := by
      rw [read_of_beginsOperand {} scanned rfl]
      cbv
    rw [evaluate_of_read (by decide) read_eq]
    cbv
  have answerNext : between.evaluate "-1" =
      (.ok (.value Int64.maxValue),
        { between with previous := Int64.maxValue }) := by
    have earlier : Token.ofValue between.previous =
        ⟨.number, "-9223372036854775808", .unknown⟩ := by
      decide +kernel
    have read_eq : between.read "-1" =
        .ok (.expression (.binary .minus (.literal Int64.minValue .unknown)
          (.literal 1 (.columns 1 2 2)))) := by
      rw [read_of_not_beginsOperand between scannedNext rfl, earlier]
      cbv
    rw [evaluate_of_read (by decide) read_eq]
    cbv
  exact evaluate_parenthesized scanned rfl scannedNext rfl answer answerNext

end Session
end Calculator
