import Calculator.Proofs.Grammar.Places
import Calculator.Proofs.Session.History
import Calculator.Proofs.Token.Pieces
import Mathlib.Data.List.Forall2

/-!
# Places have no effect on sessions

Two texts may be cut into the same pieces at different places, as they are when
only the blanks between them differ.  Sessions that differ at most in the places
of their functions answer such requests alike, up to the place that an error
points at, and go on to differ at most in places.
-/

namespace Calculator

@[simp] theorem FunctionTable.eraseSpans_define (table : FunctionTable)
    (function : FunctionDefinition) :
    (table.define function).eraseSpans =
      table.eraseSpans.define function.eraseSpans := by
  apply FunctionTable.ext_find?
  intro name
  simp only [find?_eraseSpans, find?_define, FunctionDefinition.eraseSpans,
    Name.eraseSpan]
  split <;> rfl

@[simp] theorem FunctionDefinition.signature_eraseSpans
    (function : FunctionDefinition) :
    function.eraseSpans.signature = function.signature := by
  simp only [signature, parameterNames_eraseSpans]
  rfl

/-- The same error without its place. -/
def Error.eraseSpan : Error → Error
  | .ofSyntax error => .ofSyntax error.eraseSpan
  | .ofRuntime error => .ofRuntime error.eraseSpan

/-- The answer of an exchange, without the place of its error. -/
def Exchange.answerWithoutPlace (exchange : Exchange) : Except Error Outcome :=
  exchange.answer.mapError Error.eraseSpan

theorem Exchange.answerWithoutPlace_mk (text : String)
    (reading : Except SyntaxError Statement) (answer : Except Error Outcome) :
    answerWithoutPlace ⟨text, reading, answer⟩ =
      answer.mapError Error.eraseSpan :=
  rfl

namespace Token

theorem map_eraseSpan_congr {tokens others : List Token}
    (same : tokens.map piece = others.map piece) :
    tokens.map eraseSpan = others.map eraseSpan := by
  let unplaced : TokenKind × String → Token :=
    fun piece => ⟨piece.1, piece.2, .unknown⟩
  have unplaced_piece : unplaced ∘ piece = eraseSpan := rfl
  rw [← unplaced_piece, ← List.map_map, same, List.map_map]

/-- The tokens of a request, with the previous value in front if the first of
them begins no operand. -/
def continuing (previous : Int64) : List Token → List Token
  | [] => []
  | first :: rest =>
    if first.kind.beginsOperand then first :: rest
    else .ofValue previous :: first :: rest

theorem map_eraseSpan_continuing (previous : Int64) (tokens : List Token) :
    (continuing previous tokens).map eraseSpan =
      continuing previous (tokens.map eraseSpan) := by
  cases tokens with
  | nil => rfl
  | cons first rest =>
      have kind_eq : first.eraseSpan.kind = first.kind := rfl
      simp only [continuing, List.map_cons, kind_eq]
      split <;> rfl

end Token

/-- Two texts are cut into the same pieces. -/
def SamePieces (first second : String) : Prop :=
  ∃ tokens others, Token.scan 1 first = .ok tokens ∧
    Token.scan 1 second = .ok others ∧
    tokens.map Token.piece = others.map Token.piece

namespace Session

/-- The same session without any places. -/
def eraseSpans (session : Session) : Session :=
  { session with functions := session.functions.eraseSpans }

/-- How a session answers what was read. -/
def respond (session : Session) (reading : Except SyntaxError Statement) :
    Except Error Outcome × Session :=
  if session.granted then
    match reading with
    | .error error => (.error (.ofSyntax error), session)
    | .ok statement =>
      ((session.execute statement).1.mapError .ofRuntime,
        (session.execute statement).2)
  else
    (.error (.ofRuntime (.stackUnavailable session.limits.stackSize)), session)

theorem evaluate_eq_respond (session : Session) (text : String) :
    session.evaluate text = session.respond (session.read text) :=
  rfl

/-- An answer and the session after it, without any places. -/
def withoutPlaces (answer : Except Error Outcome × Session) :
    Except Error Outcome × Session :=
  (answer.1.mapError Error.eraseSpan, answer.2.eraseSpans)

theorem withoutPlaces_inj {answer answer' : Except Error Outcome × Session} :
    withoutPlaces answer = withoutPlaces answer' ↔
      answer.1.mapError Error.eraseSpan = answer'.1.mapError Error.eraseSpan ∧
        answer.2.eraseSpans = answer'.2.eraseSpans :=
  Prod.mk.injEq .. ▸ Iff.rfl

theorem read_of_scan (session : Session) {text : String} {tokens : List Token}
    (scanned : Token.scan 1 text = .ok tokens) :
    session.read text =
      Statement.parse (Token.continuing session.previous tokens) := by
  cases tokens with
  | nil => exact read_of_nil session scanned
  | cons first rest =>
      cases begins : first.kind.beginsOperand with
      | true =>
          simp only [Token.continuing, begins, if_true]
          exact read_of_beginsOperand session scanned begins
      | false =>
          simp only [Token.continuing, begins, Bool.false_eq_true, if_false]
          exact read_of_not_beginsOperand session scanned begins

theorem execute_eraseSpans (session : Session) (statement : Statement) :
    session.eraseSpans.execute statement.eraseSpans =
      ((session.execute statement).1.mapError RuntimeError.eraseSpan,
        (session.execute statement).2.eraseSpans) := by
  cases statement with
  | definition function =>
      simp only [execute, Statement.eraseSpans, eraseSpans,
        FunctionTable.eraseSpans_define,
        FunctionDefinition.signature_eraseSpans]
      rfl
  | expression expression =>
      have result_eq : (Evaluator.fresh session.functions.eraseSpans
          session.limits).evaluate expression.eraseSpans session.environment =
            _ :=
        Evaluator.evaluate_eraseSpans expression session.environment
      have fresh_eq (functions : FunctionTable) :
          ({ functions, limits := session.limits } : Evaluator) =
            Evaluator.fresh functions session.limits :=
        rfl
      simp only [execute, Statement.eraseSpans, eraseSpans, fresh_eq,
        result_eq]
      cases ((Evaluator.fresh session.functions session.limits).evaluate
        expression session.environment).outcome <;> rfl

theorem respond_eraseSpans (session : Session)
    (reading : Except SyntaxError Statement) :
    session.eraseSpans.respond ((reading.map Statement.eraseSpans).mapError
        SyntaxError.eraseSpan) =
      withoutPlaces (session.respond reading) := by
  have granted_eq : session.eraseSpans.granted = session.granted := rfl
  have limits_eq : session.eraseSpans.limits = session.limits := rfl
  unfold respond
  rw [granted_eq, limits_eq]
  split
  · cases reading with
    | error error => rfl
    | ok statement =>
        simp only [Except.map, Except.mapError, execute_eraseSpans,
          withoutPlaces]
        cases (session.execute statement).1 <;> rfl
  · rfl

/-- Without places, the answer depends on the tokens without places. -/
theorem withoutPlaces_evaluate (session : Session) {text : String}
    {tokens : List Token} (scanned : Token.scan 1 text = .ok tokens) :
    withoutPlaces (session.evaluate text) =
      session.eraseSpans.respond (Statement.parse
        (Token.continuing session.previous (tokens.map Token.eraseSpan))) := by
  rw [evaluate_eq_respond, ← respond_eraseSpans, read_of_scan session scanned,
    ← Statement.parse_eraseSpan, Token.map_eraseSpan_continuing]

/-- What a session does with one request. -/
theorem evaluate_congr_places {session other : Session} {text text' : String}
    (same : session.eraseSpans = other.eraseSpans)
    (samePieces : SamePieces text text') :
    (session.exchange text).answerWithoutPlace =
        (other.exchange text').answerWithoutPlace ∧
      (session.evaluate text).2.eraseSpans =
        (other.evaluate text').2.eraseSpans := by
  obtain ⟨tokens, others, scanned, scanned', pieces_eq⟩ := samePieces
  have previous_eq : session.previous = other.previous := by
    show session.eraseSpans.previous = other.eraseSpans.previous
    rw [same]
  have evaluate_eq : withoutPlaces (session.evaluate text) =
      withoutPlaces (other.evaluate text') := by
    rw [withoutPlaces_evaluate session scanned,
      withoutPlaces_evaluate other scanned', same, previous_eq,
      Token.map_eraseSpan_congr pieces_eq]
  rw [exchange, exchange, Exchange.answerWithoutPlace_mk,
    Exchange.answerWithoutPlace_mk]
  exact withoutPlaces_inj.mp evaluate_eq

/-- Sessions that differ at most in places answer requests that are cut into
the same pieces alike, and differ at most in places afterwards. -/
theorem transcript_congr_places {session other : Session}
    {requests others : List String}
    (same : session.eraseSpans = other.eraseSpans)
    (samePieces : List.Forall₂ SamePieces requests others) :
    (session.transcript requests).map Exchange.answerWithoutPlace =
        (other.transcript others).map Exchange.answerWithoutPlace ∧
      (session.after requests).eraseSpans =
        (other.after others).eraseSpans := by
  induction samePieces generalizing session other with
  | nil => exact ⟨rfl, same⟩
  | cons head tail induction =>
      obtain ⟨answer_eq, next_same⟩ := evaluate_congr_places same head
      obtain ⟨answers_eq, after_eq⟩ := induction next_same
      rw [after_cons, after_cons, transcript_cons, transcript_cons,
        List.map_cons, List.map_cons, answer_eq, answers_eq]
      exact ⟨rfl, after_eq⟩

/-- A division by zero in a function that was defined on differently spaced
lines. -/
theorem transcript_of_respaced_division :
    let requests := ["deffn f(a)=a/0", "2+f(1)"]
    let others := ["deffn f ( a ) = a / 0", " 2 + f( 1 )"]
    List.Forall₂ SamePieces requests others ∧
      (Session.transcript {} requests).map Exchange.answerWithoutPlace =
        (Session.transcript {} others).map Exchange.answerWithoutPlace ∧
      (Session.after {} requests).eraseSpans =
        (Session.after {} others).eraseSpans := by
  intro requests others
  have defined : SamePieces "deffn f(a)=a/0" "deffn f ( a ) = a / 0" :=
    ⟨[⟨.name, "deffn", .columns 1 1 5⟩, ⟨.name, "f", .columns 1 7 7⟩,
        ⟨.leftParenthesis, "(", .columns 1 8 8⟩,
        ⟨.name, "a", .columns 1 9 9⟩,
        ⟨.rightParenthesis, ")", .columns 1 10 10⟩,
        ⟨.equal, "=", .columns 1 11 11⟩, ⟨.name, "a", .columns 1 12 12⟩,
        ⟨.slash, "/", .columns 1 13 13⟩, ⟨.number, "0", .columns 1 14 14⟩],
      [⟨.name, "deffn", .columns 1 1 5⟩, ⟨.name, "f", .columns 1 7 7⟩,
        ⟨.leftParenthesis, "(", .columns 1 9 9⟩,
        ⟨.name, "a", .columns 1 11 11⟩,
        ⟨.rightParenthesis, ")", .columns 1 13 13⟩,
        ⟨.equal, "=", .columns 1 15 15⟩, ⟨.name, "a", .columns 1 17 17⟩,
        ⟨.slash, "/", .columns 1 19 19⟩, ⟨.number, "0", .columns 1 21 21⟩],
      by decide +kernel, by decide +kernel, rfl⟩
  have called : SamePieces "2+f(1)" " 2 + f( 1 )" :=
    ⟨[⟨.number, "2", .columns 1 1 1⟩, ⟨.plus, "+", .columns 1 2 2⟩,
        ⟨.name, "f", .columns 1 3 3⟩,
        ⟨.leftParenthesis, "(", .columns 1 4 4⟩,
        ⟨.number, "1", .columns 1 5 5⟩,
        ⟨.rightParenthesis, ")", .columns 1 6 6⟩],
      [⟨.number, "2", .columns 1 2 2⟩, ⟨.plus, "+", .columns 1 4 4⟩,
        ⟨.name, "f", .columns 1 6 6⟩,
        ⟨.leftParenthesis, "(", .columns 1 7 7⟩,
        ⟨.number, "1", .columns 1 9 9⟩,
        ⟨.rightParenthesis, ")", .columns 1 11 11⟩],
      by decide +kernel, by decide +kernel, rfl⟩
  have samePieces : List.Forall₂ SamePieces requests others :=
    .cons defined (.cons called .nil)
  exact ⟨samePieces, transcript_congr_places rfl samePieces⟩

end Session
end Calculator
