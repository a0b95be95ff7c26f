import Mathlib.Data.Int.ModEq
import Calculator.Proofs.Evaluator.Exact
import Calculator.Proofs.Grammar.Literals
import Calculator.Proofs.Grammar.Replacement
import Calculator.Proofs.Session.Places

/-!
# Arithmetic requests

A request of numbers and variables with sums, differences and products has the
value that is congruent to its exact value.  In the exact value, numbers of any
length count in full, and the previous value counts as it is where the request
goes on from it.
-/

namespace Calculator

/-- Of all values, only a wrapped integer is congruent to it. -/
theorem toInt_modEq_iff {value : Int64} {exact : Int} :
    value.toInt ≡ exact [ZMOD 2 ^ 64] ↔ value = Int64.ofInt exact := by
  rw [eq_comm, Int64.ofInt_eq_iff_bmod_eq_toInt]
  constructor
  · intro congruent
    rw [← Int.emod_bmod, ← Int64.toInt_bmod value, ← Int.emod_bmod value.toInt]
    exact congrArg (Int.bmod · _) congruent.symm
  · intro wrapped
    rw [← wrapped]
    exact Int.bmod_emod

namespace Session

variable {session : Session} {text : String} {tokens : List Token}
  {expression : Expr}

/-- The integer that is written at a place of a request.  What has no place in
it is the previous value. -/
def written (session : Session) (tokens : List Token) : Span → Int
  | .unknown => session.previous.toInt
  | place => Token.numberAt tokens place

/-- The integer that a variable stands for, zero if it is not bound. -/
def current (session : Session) (name : String) : Int :=
  (session.environment.value name).toInt

/-- The value of a number that is read off a token of a request is the integer
that is written there, wrapped around. -/
theorem eq_written_of_readsLiteral
    (scanned : Token.scan 1 text = .ok tokens) {token : Token}
    (given : token ∈ tokens) {value : Int64}
    (reads : Grammar.ReadsLiteral value token) :
    value = Int64.ofInt (session.written tokens token.span) := by
  have row := Token.row_of_scan scanned
  have written_eq : session.written tokens token.span =
      Token.numberAt tokens token.span := by
    obtain ⟨first, last, span_eq, _⟩ := row.exists_columns given
    rw [span_eq]
    rfl
  rw [written_eq, Int64.ofInt_eq_ofNat]
  cases reads with
  | number isNumber value_eq =>
      rw [value_eq, row.numberAt_of_number given isNumber]
      exact Token.numeral_of_spells isNumber
        (Token.spells_of_scan scanned token given)
  | sign isMinus value_eq =>
      have notNumber : token.kind ≠ .number := by rw [isMinus]; nofun
      rw [value_eq, row.numberAt_of_not_number given notNumber]
      rfl

/-- The previous value in front of a request is written without a place. -/
theorem eq_written_of_previous {value : Int64}
    (reads : Grammar.ReadsLiteral value (.ofValue session.previous)) :
    value = Int64.ofInt (session.written tokens .unknown) := by
  cases reads with
  | number _ value_eq =>
      rw [value_eq, written, Int64.ofInt_toInt]
      exact Token.numeral_ofValue session.previous
  | sign isMinus => cases isMinus

/-- What a request goes on with are its tokens and the previous value. -/
theorem mem_continuing {previous : Int64} {token : Token}
    (given : token ∈ Token.continuing previous tokens) :
    token = .ofValue previous ∨ token ∈ tokens := by
  cases tokens with
  | nil => cases given
  | cons first rest =>
      rw [Token.continuing] at given
      split at given
      · exact .inr given
      · exact List.mem_cons.mp given

/-- The numbers in an expression that is read are the ones that are written at
their places, wrapped around. -/
theorem wrapsLiterals_of_read (scanned : Token.scan 1 text = .ok tokens)
    (read_eq : session.read text = .ok (.expression expression)) :
    expression.WrapsLiterals (session.written tokens) := by
  rw [read_of_scan session scanned] at read_eq
  obtain ⟨⟨_, reads⟩, _⟩ := Grammar.reads_of_parse read_eq
  intro value place isNode
  obtain ⟨token, given, rfl, readsLiteral⟩ :=
    reads.literalsIn value place isNode
  rcases mem_continuing given with rfl | scannedToken
  · exact eq_written_of_previous readsLiteral
  · exact eq_written_of_readsLiteral scanned scannedToken readsLiteral

/-- What is read was cut into tokens. -/
theorem exists_scan_of_read {statement : Statement}
    (read_eq : session.read text = .ok statement) :
    ∃ tokens, Token.scan 1 text = .ok tokens := by
  cases scanned : Token.scan 1 text with
  | ok tokens => exact ⟨tokens, rfl⟩
  | error error =>
      simp only [read, TokenSequence.ofRequest, TokenSequence.scan, scanned]
        at read_eq
      cases read_eq

/-- An arithmetic request that does not get too deep has the one value that is
congruent to its exact value. -/
theorem evaluate_arithmetic (granted : session.granted = true)
    (read_eq : session.read text = .ok (.expression expression))
    (arithmetic : expression.isArithmetic = true)
    (notTooDeep : ∀ limit after, session.evaluate text ≠
      (.error (.ofRuntime (.nestingTooDeep limit)), after)) :
    ∃ tokens exact value after,
      Token.scan 1 text = .ok tokens ∧
      expression.exactValue? (session.written tokens) session.current =
        some exact ∧
      session.evaluate text = (.ok (.value value), after) ∧
      value.toInt ≡ exact [ZMOD 2 ^ 64] ∧
      ∀ other : Int64, other.toInt ≡ exact [ZMOD 2 ^ 64] → other = value := by
  obtain ⟨tokens, scanned⟩ := exists_scan_of_read read_eq
  obtain ⟨exact, exact_eq, computes⟩ :=
    @Evaluator.computes_meaning session.functions session.limits _
      session.current expression arithmetic
      (wrapsLiterals_of_read scanned read_eq)
  have current_eq (name : String) : session.environment.value name =
      Int64.ofInt (session.current name) :=
    (Int64.ofInt_toInt _).symm
  have computes := computes session.limits.maximumNesting 0 session.environment
    current_eq
  have answer := evaluate_of_read granted read_eq
  simp only [Evaluator.evaluate_fresh] at answer
  generalize Evaluator.meaning session.functions session.limits
    session.limits.maximumNesting 0 expression session.environment = result
    at computes answer
  cases computes with
  | tooDeep => exact absurd answer (notTooDeep _ _)
  | value unchanged =>
      exact ⟨tokens, exact, .ofInt exact, _, scanned, exact_eq, answer,
        toInt_modEq_iff.mpr rfl, fun other => toInt_modEq_iff.mp⟩

set_option maxRecDepth 10000 in
/-- After the value `-5` and with `7` for `x`, the request
`*x--36893488147419103233` goes on from the value and wraps its number. -/
theorem evaluate_arithmetic_wrapped :
    let session : Session :=
      { environment := Environment.empty.assign "x" 7, previous := -5 }
    let text := "*x--36893488147419103233"
    let expression : Expr :=
      .binary .minus
        (.binary .times (.literal (-5) .unknown)
          (.var ⟨"x", .columns 1 2 2⟩))
        (.binary .minus (.literal 0 (.columns 1 4 4))
          (.literal 1 (.columns 1 5 24)))
    ∃ tokens exact value after,
      Token.scan 1 text = .ok tokens ∧
      expression.exactValue? (session.written tokens) session.current =
        some exact ∧
      session.evaluate text = (.ok (.value value), after) ∧
      value.toInt ≡ exact [ZMOD 2 ^ 64] ∧
      ∀ other : Int64, other.toInt ≡ exact [ZMOD 2 ^ 64] → other = value := by
  intro session text expression
  have scanned : Token.scan 1 text =
      .ok [⟨.star, "*", .columns 1 1 1⟩, ⟨.name, "x", .columns 1 2 2⟩,
        ⟨.minus, "-", .columns 1 3 3⟩, ⟨.minus, "-", .columns 1 4 4⟩,
        ⟨.number, "36893488147419103233", .columns 1 5 24⟩] := by
    decide +kernel
  have earlier : Token.ofValue session.previous =
      ⟨.number, "-5", .unknown⟩ := by
    decide +kernel
  have read_eq : session.read text = .ok (.expression expression) := by
    rw [read_of_not_beginsOperand session scanned rfl, earlier]
    cbv
  have answer : session.evaluate text =
      (.ok (.value (-34)), { session with previous := -34 }) := by
    have outcome_eq : ((Evaluator.fresh session.functions
        session.limits).evaluate expression session.environment).outcome =
          .ok (-34) := by
      decide +kernel
    have environment_eq : ((Evaluator.fresh session.functions
        session.limits).evaluate expression session.environment).environment =
          session.environment := by
      decide +kernel
    rw [evaluate_of_read (by decide) read_eq]
    simp only [outcome_eq, environment_eq]
  refine evaluate_arithmetic (by decide) read_eq rfl fun _ _ failed => ?_
  rw [answer] at failed
  cases failed

end Session
end Calculator
