import Calculator.Proofs.Evaluator.Places
import Calculator.Proofs.Evaluator.Substitution
import Calculator.Proofs.Grammar.Signs
import Calculator.Session

/-!
# Signs keep the meaning of texts

The infix text of a tree with negative numbers is read as another tree: a sign
becomes a subtraction from zero, and of a whole product if the number begins
one.  Products, quotients rounded towards zero and their remainders change sign
with their left operand, so the other tree does the same in every environment.
-/

namespace Calculator

namespace Operator

/-- Products, quotients and remainders change sign with their left operand. -/
theorem integerResult?_neg {operator : Operator}
    (product : operator.isProduct = true) (left right : Int) :
    operator.integerResult? (-left) right =
      (operator.integerResult? left right).map (-·) := by
  cases operator with
  | times => simp only [integerResult?, Int.neg_mul, Option.map_some]
  | divide =>
      simp only [integerResult?, Int.neg_tdiv]
      split <;> rfl
  | modulo =>
      simp only [integerResult?, Int.neg_tmod]
      split <;> rfl
  | _ => cases product

end Operator

/-- Above the least value, opposite values stand for opposite integers. -/
theorem toInt_neg_of_minValue_lt {value : Int64}
    (inRange : Int64.minValue < value) :
    (-value).toInt = -value.toInt := by
  have minValue_lt := Int64.lt_iff_toInt_lt.mp inRange
  have value_lt := value.toInt_lt
  rw [Int64.toInt_minValue] at minValue_lt
  rw [Int64.toInt_neg]
  exact Int.bmod_eq_of_le (by omega) (by omega)

/-- What is derived is this outcome, or an error of the same kind. -/
def EndsLike {Value : Type}
    (derives : Except RuntimeError Value → (height bodies : Nat) → Prop)
    (outcome : Except RuntimeError Value) : Prop :=
  ∃ other height bodies, derives other height bodies ∧ SameKind outcome other

namespace EndsLike

variable {Value : Type}
  {derives : Except RuntimeError Value → (height bodies : Nat) → Prop}
  {outcome : Except RuntimeError Value} {height bodies : Nat}

theorem refl (derivation : derives outcome height bodies) :
    EndsLike derives outcome :=
  ⟨outcome, height, bodies, derivation, .refl outcome⟩

theorem of_kind {error other : RuntimeError}
    (derivation : derives (.error other) height bodies)
    (kind_eq : error.kind = other.kind) : EndsLike derives (.error error) :=
  ⟨.error other, height, bodies, derivation, .of_kind kind_eq⟩

theorem ok {value : Value} (ends : EndsLike derives (.ok value)) :
    ∃ height bodies, derives (.ok value) height bodies := by
  obtain ⟨other, height, bodies, derivation, same⟩ := ends
  rw [same.eq_ok] at derivation
  exact ⟨height, bodies, derivation⟩

theorem error {error : RuntimeError}
    (ends : EndsLike derives (.error error)) :
    ∃ other height bodies,
      derives (.error other) height bodies ∧ error.kind = other.kind := by
  obtain ⟨other, height, bodies, derivation, same⟩ := ends
  obtain ⟨other, rfl, kind_eq⟩ := same.eq_error
  exact ⟨other, height, bodies, derivation, kind_eq⟩

end EndsLike

/-! ### Trees that do the same -/

/-- Whatever the first tree does, the second does as well.  No tree has two
outcomes, so this determines what the second does wherever the first ends. -/
structure SimulatedBy (functions : FunctionTable) (first second : Expr) :
    Prop where
  ends : ∀ {before after outcome height bodies},
    Evaluates functions first before outcome after height bodies →
      EndsLike (Evaluates functions second before · after) outcome

/-- Whatever the first trees do, the second ones do as well. -/
structure AllSimulatedBy (functions : FunctionTable)
    (first second : List Expr) : Prop where
  ends : ∀ {before after outcome height bodies},
    EvaluatesAll functions first before outcome after height bodies →
      EndsLike (EvaluatesAll functions second before · after) outcome

variable {functions : FunctionTable}

theorem SimulatedBy.refl (expression : Expr) :
    SimulatedBy functions expression expression :=
  ⟨fun derivation => .refl derivation⟩

theorem SimulatedBy.trans {first second third : Expr}
    (simulates : SimulatedBy functions first second)
    (next : SimulatedBy functions second third) :
    SimulatedBy functions first third := by
  refine ⟨fun derivation => ?_⟩
  obtain ⟨other, _, _, derivation, same⟩ := simulates.ends derivation
  obtain ⟨last, _, _, derivation, same'⟩ := next.ends derivation
  exact ⟨last, _, _, derivation, Eq.trans same same'⟩

theorem SimulatedBy.binary {operator : Operator}
    {left right left' right' : Expr}
    (simulatesLeft : SimulatedBy functions left left')
    (simulatesRight : SimulatedBy functions right right') :
    SimulatedBy functions (.binary operator left right)
      (.binary operator left' right') := by
  refine ⟨fun derivation => ?_⟩
  cases derivation with
  | leftFails fails =>
      obtain ⟨_, _, _, fails, kind_eq⟩ := (simulatesLeft.ends fails).error
      exact .of_kind (.leftFails fails) kind_eq
  | rightFails evaluatesLeft fails =>
      obtain ⟨_, _, evaluatesLeft⟩ := (simulatesLeft.ends evaluatesLeft).ok
      obtain ⟨_, _, _, fails, kind_eq⟩ := (simulatesRight.ends fails).error
      exact .of_kind (.rightFails evaluatesLeft fails) kind_eq
  | operation evaluatesLeft evaluatesRight result_eq =>
      obtain ⟨_, _, evaluatesLeft⟩ := (simulatesLeft.ends evaluatesLeft).ok
      obtain ⟨_, _, evaluatesRight⟩ := (simulatesRight.ends evaluatesRight).ok
      exact .refl (.operation evaluatesLeft evaluatesRight result_eq)
  | divisionByZero evaluatesLeft evaluatesRight result_eq =>
      obtain ⟨_, _, evaluatesLeft⟩ := (simulatesLeft.ends evaluatesLeft).ok
      obtain ⟨_, _, evaluatesRight⟩ := (simulatesRight.ends evaluatesRight).ok
      exact .of_kind
        (.divisionByZero evaluatesLeft evaluatesRight result_eq) rfl

theorem SimulatedBy.assign {value value' : Expr} (target : Expr)
    (simulates : SimulatedBy functions value value') :
    SimulatedBy functions (.assign target value) (.assign target value') := by
  refine ⟨fun derivation => ?_⟩
  cases derivation with
  | storeFails fails =>
      obtain ⟨_, _, _, fails, kind_eq⟩ := (simulates.ends fails).error
      exact .of_kind (.storeFails fails) kind_eq
  | store evaluatesValue =>
      obtain ⟨_, _, evaluatesValue⟩ := (simulates.ends evaluatesValue).ok
      exact .refl (.store evaluatesValue)

theorem SimulatedBy.conditional
    {test onTrue onFalse test' onTrue' onFalse' : Expr}
    (simulatesTest : SimulatedBy functions test test')
    (simulatesTrue : SimulatedBy functions onTrue onTrue')
    (simulatesFalse : SimulatedBy functions onFalse onFalse') :
    SimulatedBy functions (.conditional test onTrue onFalse)
      (.conditional test' onTrue' onFalse') := by
  refine ⟨fun derivation => ?_⟩
  cases derivation with
  | testFails fails =>
      obtain ⟨_, _, _, fails, kind_eq⟩ := (simulatesTest.ends fails).error
      exact .of_kind (.testFails fails) kind_eq
  | onTrue evaluatesTest nonzero branch =>
      obtain ⟨_, _, evaluatesTest⟩ := (simulatesTest.ends evaluatesTest).ok
      obtain ⟨_, _, _, branch, same⟩ := simulatesTrue.ends branch
      exact ⟨_, _, _, .onTrue evaluatesTest nonzero branch, same⟩
  | onFalse evaluatesTest branch =>
      obtain ⟨_, _, evaluatesTest⟩ := (simulatesTest.ends evaluatesTest).ok
      obtain ⟨_, _, _, branch, same⟩ := simulatesFalse.ends branch
      exact ⟨_, _, _, .onFalse evaluatesTest branch, same⟩

theorem SimulatedBy.call {arguments arguments' : List Expr} (callee : Name)
    (close : Span) (simulate : AllSimulatedBy functions arguments arguments') :
    SimulatedBy functions (.call callee arguments close)
      (.call callee arguments' close) := by
  refine ⟨fun derivation => ?_⟩
  cases derivation with
  | undefinedFunction missing => exact .refl (.undefinedFunction missing)
  | argumentFails found fails =>
      obtain ⟨_, _, _, fails, kind_eq⟩ := (simulate.ends fails).error
      exact .of_kind (.argumentFails found fails) kind_eq
  | surplus found given tooMany =>
      obtain ⟨_, _, given⟩ := (simulate.ends given).ok
      exact .refl (.surplus found given tooMany)
  | call found given few body =>
      obtain ⟨_, _, given⟩ := (simulate.ends given).ok
      exact .refl (.call found given few body)

theorem AllSimulatedBy.cons {first first' : Expr} {rest rest' : List Expr}
    (simulates : SimulatedBy functions first first')
    (simulate : AllSimulatedBy functions rest rest') :
    AllSimulatedBy functions (first :: rest) (first' :: rest') := by
  refine ⟨fun derivation => ?_⟩
  cases derivation with
  | firstFails fails =>
      obtain ⟨_, _, _, fails, kind_eq⟩ := (simulates.ends fails).error
      exact .of_kind (.firstFails fails) kind_eq
  | restFails evaluatesFirst fails =>
      obtain ⟨_, _, evaluatesFirst⟩ := (simulates.ends evaluatesFirst).ok
      obtain ⟨_, _, _, fails, kind_eq⟩ := (simulate.ends fails).error
      exact .of_kind (.restFails evaluatesFirst fails) kind_eq
  | cons evaluatesFirst evaluatesRest =>
      obtain ⟨_, _, evaluatesFirst⟩ := (simulates.ends evaluatesFirst).ok
      obtain ⟨_, _, evaluatesRest⟩ := (simulate.ends evaluatesRest).ok
      exact .refl (.cons evaluatesFirst evaluatesRest)

/-! ### Signs -/

/-- A subtraction from zero has the opposite value. -/
theorem Evaluates.negation {operand : Expr} {before after : Environment}
    {value : Int64} {height bodies : Nat}
    (evaluates : Evaluates functions operand before (.ok value) after height
      bodies) :
    ∃ height' bodies',
      Evaluates functions (.negation operand) before (.ok (-value)) after
        height' bodies' := by
  have value_eq : Int64.ofInt ((0 : Int64).toInt - value.toInt) = -value := by
    rw [Int64.ofInt_sub, Int64.ofInt_toInt, Int64.ofInt_toInt, Int64.zero_sub]
  have derivation : Evaluates functions (.negation operand) before
      (.ok (Int64.ofInt ((0 : Int64).toInt - value.toInt))) after _ _ :=
    .operation .literal evaluates rfl
  rw [value_eq] at derivation
  exact ⟨_, _, derivation⟩

theorem SimulatedBy.signedNumber (value : Int64) (span span' : Span) :
    SimulatedBy functions (.literal value span)
      (.negation (.literal (-value) span')) := by
  refine ⟨fun derivation => ?_⟩
  cases derivation with
  | literal =>
      obtain ⟨_, _, negated⟩ :=
        (@Evaluates.literal functions (-value) span' _).negation
      rw [Int64.neg_neg] at negated
      exact .refl negated

/-- It makes no difference whether the sign is taken by the number or by the
product that it begins. -/
theorem SimulatedBy.signedProduct {operator : Operator} {value : Int64}
    {right right' : Expr} (span span' : Span)
    (product : operator.isProduct = true)
    (inRange : Int64.minValue < value)
    (simulates : SimulatedBy functions right right') :
    SimulatedBy functions (.binary operator (.literal value span) right)
      (.negation (.binary operator (.literal (-value) span') right')) := by
  -- Either both operations have results, which are opposite, or neither has.
  have result_neg (rightValue : Int64) :
      operator.integerResult? (-value).toInt rightValue.toInt =
        (operator.integerResult? value.toInt rightValue.toInt).map (-·) := by
    rw [toInt_neg_of_minValue_lt inRange, Operator.integerResult?_neg product]
  refine ⟨fun derivation => ?_⟩
  cases derivation with
  | leftFails fails => cases fails
  | rightFails evaluatesLeft fails =>
      cases evaluatesLeft
      obtain ⟨_, _, _, fails, kind_eq⟩ := (simulates.ends fails).error
      exact .of_kind (.rightFails .literal (.rightFails .literal fails)) kind_eq
  | operation evaluatesLeft evaluatesRight result_eq =>
      cases evaluatesLeft
      obtain ⟨_, _, evaluatesRight⟩ := (simulates.ends evaluatesRight).ok
      have opposite_eq := congrArg (Option.map (-·)) result_eq
      rw [← result_neg, Option.map_some] at opposite_eq
      have taken : Evaluates functions
          (.binary operator (.literal (-value) span') right') _ _ _ _ _ :=
        .operation .literal evaluatesRight opposite_eq
      obtain ⟨_, _, negated⟩ := taken.negation
      rw [Int64.ofInt_neg, Int64.neg_neg] at negated
      exact .refl negated
  | divisionByZero evaluatesLeft evaluatesRight result_eq =>
      cases evaluatesLeft
      obtain ⟨_, _, evaluatesRight⟩ := (simulates.ends evaluatesRight).ok
      rw [← Option.map_eq_none_iff, ← result_neg] at result_eq
      have fails : Evaluates functions
          (.binary operator (.literal (-value) span') right') _ _ _ _ _ :=
        .divisionByZero .literal evaluatesRight result_eq
      exact .of_kind (.rightFails .literal fails)
        (by simp only [RuntimeError.kind])

/-! ### The meaning of texts -/

namespace Expr

/-- No number is the least value, whose opposite is out of range. -/
def AboveLeast (expression : Expr) : Prop :=
  ∀ value span, .literal value span ∈ expression.nodes →
    Int64.minValue < value

theorem AboveLeast.part {whole part : Expr} (above : whole.AboveLeast)
    (isPart : part ∈ whole.nodes) : part.AboveLeast :=
  fun value span inPart =>
    above value span (hasParts_nodes whole part isPart inPart)

end Expr

mutual

/-- A tree does the same as the tree that its infix text is read as. -/
theorem simulatedBy_reread : (expression : Expr) → expression.AboveLeast →
    SimulatedBy functions expression expression.reread
  | .literal value span, _ => by
      unfold Expr.reread
      split
      · exact .signedNumber value span span
      · exact .refl _
  | .var name, _ => .refl _
  | .binary operator left right, above => by
      have simulatesRight := simulatedBy_reread right
        (above.part (by simp [Expr.nodes]))
      unfold Expr.reread
      split
      · next taken =>
        obtain ⟨product, signed⟩ := Bool.and_eq_true_iff.mp taken
        obtain ⟨value, span, rfl, -⟩ := Expr.exists_of_isSigned signed
        exact .signedProduct span span product
          (above value span (by simp [Expr.nodes])) simulatesRight
      · exact .binary (simulatedBy_reread left
          (above.part (by simp [Expr.nodes]))) simulatesRight
  | .assign target value, above =>
      .assign target (simulatedBy_reread value
        (above.part (by simp [Expr.nodes])))
  | .conditional test onTrue onFalse, above =>
      .conditional
        (simulatedBy_reread test (above.part (by simp [Expr.nodes])))
        (simulatedBy_reread onTrue (above.part (by simp [Expr.nodes])))
        (simulatedBy_reread onFalse (above.part (by simp [Expr.nodes])))
  | .call callee arguments close, above =>
      .call callee close (allSimulatedBy_rereadAll arguments fun _ among =>
        above.part (Expr.mem_nodes_of_mem_arguments among))

theorem allSimulatedBy_rereadAll : (expressions : List Expr) →
    (∀ expression ∈ expressions, expression.AboveLeast) →
      AllSimulatedBy functions expressions (Expr.rereadAll expressions)
  | [], _ => ⟨fun derivation => .refl derivation⟩
  | first :: rest, above => by
      obtain ⟨firstAbove, restAbove⟩ := List.forall_mem_cons.mp above
      exact .cons (simulatedBy_reread first firstAbove)
        (allSimulatedBy_rereadAll rest restAbove)

end

namespace Evaluator

theorem sameKind_eraseSpan {Value : Type}
    (outcome : Except RuntimeError Value) :
    SameKind outcome (outcome.mapError RuntimeError.eraseSpan) := by
  cases outcome with
  | ok value => rfl
  | error error => exact .of_kind error.kind_eraseSpan.symm

/-- Trees that differ at most in their places leave the same environment, with
the same value or errors of the same kind. -/
theorem evaluate_congr_eraseSpans {first second : Expr}
    (same : first.eraseSpans = second.eraseSpans) (limits : Limits)
    (before : Environment) :
    let firstResult := (fresh functions limits).evaluate first before
    let secondResult := (fresh functions limits).evaluate second before
    SameKind firstResult.outcome secondResult.outcome ∧
      firstResult.environment = secondResult.environment := by
  intro firstResult secondResult
  have first_eq := @evaluate_eraseSpans functions limits first before
  rw [same, evaluate_eraseSpans second before, Result.mk.injEq] at first_eq
  obtain ⟨outcome_eq, environment_eq, -⟩ := first_eq
  refine ⟨?_, environment_eq.symm⟩
  calc
    firstResult.outcome.mapError RuntimeError.kind
    _ = (firstResult.outcome.mapError RuntimeError.eraseSpan).mapError
          RuntimeError.kind := sameKind_eraseSpan _
    _ = (secondResult.outcome.mapError RuntimeError.eraseSpan).mapError
          RuntimeError.kind := congrArg _ outcome_eq.symm
    _ = secondResult.outcome.mapError RuntimeError.kind :=
          (sameKind_eraseSpan _).symm

theorem kind_ne_of_isFault {error : RuntimeError} (fault : error.IsFault) :
    error.kind ≠ .callDepthExceeded := by
  intro isLimit
  cases error with
  | callDepthExceeded | nestingTooDeep | stackUnavailable => cases fault
  | _ => cases isLimit

/-- Trees that differ at most in their places do the same. -/
theorem simulatedBy_of_eraseSpans {first second : Expr}
    (same : first.eraseSpans = second.eraseSpans) :
    SimulatedBy functions first second := by
  refine ⟨fun {before after outcome height bodies} derivation => ?_⟩
  -- Places are known to have no effect on evaluation within limits, so the
  -- limits are taken that the derivation just keeps to.
  let limits : Limits := ⟨bodies, height⟩
  have derives : DerivesWithin functions limits first before outcome after :=
    ⟨height, Nat.le_refl _, bodies, Nat.le_refl _, derivation⟩
  obtain ⟨sameKind, environment_eq⟩ := @evaluate_congr_eraseSpans functions
    first second same limits before
  rw [evaluate_of_derivesWithin derives] at sameKind environment_eq
  rcases evaluate_cases functions limits second before with
    ⟨error, isError, reached⟩ | ⟨_, _, _, _, other⟩
  · rw [isError] at sameKind
    obtain ⟨fault, rfl, kind_eq⟩ := SameKind.eq_error sameKind.symm
    have isLimit := RuntimeError.kind_of_isLimitOf reached
    exact absurd (kind_eq.symm.trans isLimit)
      (kind_ne_of_isFault derives.failsByFault)
  · rw [← environment_eq] at other
    exact ⟨_, _, _, other, sameKind⟩

/-- A tree and one that simulates it have the same effect, whatever limits they
have, if neither reaches any. -/
theorem evaluate_of_simulatedBy {first second : Expr}
    (simulates : SimulatedBy functions first second) (limits others : Limits)
    (before : Environment) :
    let firstResult := (fresh functions limits).evaluate first before
    let secondResult := (fresh functions others).evaluate second before
    (∀ error, firstResult.outcome = .error error →
      error.kind ≠ .callDepthExceeded) →
      (∀ error, secondResult.outcome = .error error →
        error.kind ≠ .callDepthExceeded) →
        SameKind firstResult.outcome secondResult.outcome ∧
          firstResult.environment = secondResult.environment := by
  intro firstResult secondResult firstInLimits secondInLimits
  obtain ⟨_, _, _, _, evaluatesFirst⟩ := derivesWithin_of_kind_ne firstInLimits
  obtain ⟨_, _, _, _, evaluatesSecond⟩ :=
    derivesWithin_of_kind_ne secondInLimits
  obtain ⟨_, _, _, derivation, same⟩ := simulates.ends evaluatesFirst
  obtain ⟨rfl, environment_eq⟩ := derivation.unique evaluatesSecond
  exact ⟨same, environment_eq⟩

end Evaluator

open Grammar

/-- The infix text of a tree with signs is cut into tokens, in front of which no
session puts a previous value, unless the tree is a number with a sign.  They
are read as a tree if and only if they are not nested deeper than there is room
for.  Whenever the tree and the one that is read from its text are evaluated in
the same environment with the same functions, and neither reaches a limit, they
leave the same environment, with the same value or errors of the same kind. -/
theorem Evaluator.evaluate_infixText (line : Nat) {expression : Expr}
    (proper : expression.IsProper) (above : expression.AboveLeast) :
    ∃ sequence, TokenSequence.scan line expression.infixText = .ok sequence ∧
      (expression.isSigned = false →
        ∀ previous, sequence.continuing previous = sequence) ∧
      ((∃ statement, sequence.parse = .ok statement) ↔
        expression.rereadDepth ≤ maximumNesting) ∧
      ∀ statement, sequence.parse = .ok statement →
        ∃ read, statement = .expression read ∧
          read.alike expression.reread = true ∧
          ∀ functions limits others before,
            let written := (fresh functions limits).evaluate expression before
            let reread := (fresh functions others).evaluate read before
            (∀ error, written.outcome = .error error →
              error.kind ≠ .callDepthExceeded) →
              (∀ error, reread.outcome = .error error →
                error.kind ≠ .callDepthExceeded) →
                SameKind written.outcome reread.outcome ∧
                  written.environment = reread.environment := by
  have cuts := expression.cuts_infixText
    fun name named => (proper.names name named).identifier
  obtain ⟨tokens, scanned, pieces_eq⟩ := Token.scan_of_cuts cuts line
  obtain ⟨read, read_eq, settled⟩ := settles_parse_of_pieces proper pieces_eq
  refine ⟨.ofList tokens, ?_, fun unsigned previous => ?_, ?_,
    fun statement parsed => ?_⟩
  · rw [TokenSequence.scan, scanned]
    rfl
  · have begins := expression.beginsOperand_pieces
    rw [← pieces_eq, unsigned] at begins
    cases tokens with
    | nil => rfl
    | cons first rest => exact if_pos (begins first.piece rfl)
  · rcases settled with ⟨depth_le, parsed⟩ | ⟨tooDeep, span, limit, refused⟩
    · exact ⟨fun _ => depth_le, fun _ => ⟨_, parsed⟩⟩
    · refine ⟨?_, fun depth_le => absurd depth_le tooDeep⟩
      rintro ⟨statement, parsed⟩
      cases refused.symm.trans parsed
  · rcases settled with ⟨-, readParsed⟩ | ⟨-, span, limit, refused⟩
    · cases readParsed.symm.trans parsed
      refine ⟨read, rfl, (Expr.alike_iff ..).mpr read_eq,
        fun functions limits others before => ?_⟩
      -- The tree that is read differs in its places, which are of no account.
      exact evaluate_of_simulatedBy ((simulatedBy_reread expression above).trans
        (simulatedBy_of_eraseSpans read_eq.symm)) limits others before
    · cases refused.symm.trans parsed

/-- For instance, the sign of a dividend is read as that of the quotient, which
is rounded towards zero all the same. -/
theorem Evaluator.evaluate_infixText_quotient :
    let quotient : Expr :=
      .binary .divide (.literal (-7) .unknown) (.var ⟨"x", .unknown⟩)
    let before := Environment.empty.assign "x" 2
    quotient.infixText = "(-7 / x)" ∧
      ∃ sequence read, TokenSequence.scan 1 "(-7 / x)" = .ok sequence ∧
        sequence.parse = .ok (.expression read) ∧
        ((fresh .empty .standard).evaluate quotient before).outcome =
          .ok (-3) ∧
        ((fresh .empty .standard).evaluate read before).outcome =
          .ok (-3) := by
  intro quotient before
  have text_eq : quotient.infixText = "(-7 / x)" := by
    have number_eq : Decimal.text (-7) = "-7" := by
      have seven : Decimal.digits 7 = ['7'] := Decimal.digits_of_lt (by decide)
      have magnitude_eq : (-7 : Int64).toInt.natAbs = 7 := by decide
      rw [Decimal.text, magnitude_eq, seven]
      rfl
    simp only [quotient, Expr.infixText, number_eq]
    rfl
  have proper : quotient.IsProper := by
    refine ⟨by decide, (Expr.permitted_binary ..).mpr ⟨?_, ?_⟩⟩
    · exact Expr.permitted_literal ..
    · exact Expr.permitted_var _
  have above : quotient.AboveLeast := by
    intro value span isNode
    simp only [quotient, Expr.nodes, List.cons_append, List.nil_append,
      List.mem_cons, List.not_mem_nil, reduceCtorEq, Expr.literal.injEq,
      false_or, or_false] at isNode
    rw [isNode.1]
    decide
  have current : before.value "x" = 2 := by
    simp [before, Environment.value_assign]
  have divisor : Evaluates .empty (.var ⟨"x", .unknown⟩) before (.ok 2)
      (before.touch "x") 1 0 := by
    rw [← current]
    exact .var
  have written : DerivesWithin .empty .standard quotient before
      (.ok (Int64.ofInt (-3))) (before.touch "x") :=
    ⟨2, by decide, 0, by decide, .operation .literal divisor rfl⟩
  have negated : DerivesWithin .empty .standard quotient.reread before
      (.ok (Int64.ofInt (-3))) (before.touch "x") :=
    ⟨3, by decide, 0, by decide,
      .operation .literal (.operation .literal divisor rfl) rfl⟩
  have depth_le : quotient.rereadDepth ≤ maximumNesting := by decide
  obtain ⟨sequence, scanned, -, parses_iff, meaning⟩ :=
    evaluate_infixText 1 proper above
  obtain ⟨statement, parsed⟩ := parses_iff.mpr depth_le
  obtain ⟨read, rfl, alike, meaning⟩ := meaning statement parsed
  have written_eq := evaluate_of_derivesWithin written
  have writtenInLimits : ∀ error,
      ((fresh .empty .standard).evaluate quotient before).outcome =
        .error error → error.kind ≠ .callDepthExceeded := by
    rw [written_eq]
    intro error isError
    cases isError
  have rereadInLimits : ∀ error,
      ((fresh .empty .standard).evaluate read before).outcome =
        .error error → error.kind ≠ .callDepthExceeded := by
    have same := (@evaluate_congr_eraseSpans .empty _ _
      ((Expr.alike_iff ..).mp alike) .standard before).1
    rw [evaluate_of_derivesWithin negated] at same
    rw [SameKind.eq_ok same.symm]
    intro error isError
    cases isError
  obtain ⟨sameKind, -⟩ :=
    meaning .empty .standard .standard before writtenInLimits rereadInLimits
  rw [written_eq] at sameKind
  rw [text_eq] at scanned
  refine ⟨text_eq, sequence, read, scanned, parsed, ?_, sameKind.eq_ok⟩
  rw [written_eq]
  rfl

end Calculator
