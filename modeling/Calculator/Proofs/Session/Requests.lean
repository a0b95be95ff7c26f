import Calculator.Proofs.Evaluator.Bounds
import Calculator.Proofs.Grammar.Requests
import Calculator.Session

/-!
# What a request can do

A request is refused and changes nothing, or it defines a function and changes
the functions, or it has a value and changes the variables and the previous
value.  How a request is read depends on the previous value alone, and whether
it is a definition does not depend on the session at all.
-/

namespace Calculator

/-- A definition begins with the keyword. -/
theorem Statement.isKeyword_of_parse {tokens : List Token}
    {function : FunctionDefinition}
    (parsed : Statement.parse tokens = .ok (.definition function)) :
    ∃ keyword rest, tokens = keyword :: rest ∧ Grammar.IsKeyword keyword := by
  obtain ⟨⟨_, _, derives⟩, _⟩ := Grammar.admits_of_parse parsed
  cases derives with
  | definition isKeyword => exact ⟨_, _, rfl, isKeyword⟩

namespace Session

variable {session other : Session} {text : String}

theorem read_of_nil (session : Session) {text : String}
    (scanned : Token.scan 1 text = .ok []) :
    session.read text = Statement.parse [] := by
  have tokens_eq : TokenSequence.ofRequest session.previous text =
      .ok (.ofList []) := by
    simp only [TokenSequence.ofRequest, TokenSequence.scan, scanned, Except.map]
    rfl
  simp only [read, tokens_eq]
  rfl

theorem read_of_beginsOperand (session : Session) {text : String}
    {first : Token} {rest : List Token}
    (scanned : Token.scan 1 text = .ok (first :: rest))
    (begins : first.kind.beginsOperand = true) :
    session.read text = Statement.parse (first :: rest) := by
  have tokens_eq : TokenSequence.ofRequest session.previous text =
      .ok (.ofList (first :: rest)) := by
    simp only [TokenSequence.ofRequest, TokenSequence.scan, scanned, Except.map]
    simp [TokenSequence.continuing, TokenSequence.ofList, TokenSequence.peek?,
      begins]
  simp only [read, tokens_eq]
  rfl

theorem read_of_not_beginsOperand (session : Session) {text : String}
    {first : Token} {rest : List Token}
    (scanned : Token.scan 1 text = .ok (first :: rest))
    (goesOn : first.kind.beginsOperand = false) :
    session.read text =
      Statement.parse (.ofValue session.previous :: first :: rest) := by
  have tokens_eq : TokenSequence.ofRequest session.previous text =
      .ok (.ofList (.ofValue session.previous :: first :: rest)) := by
    simp only [TokenSequence.ofRequest, TokenSequence.scan, scanned, Except.map]
    simp [TokenSequence.continuing, TokenSequence.ofList, TokenSequence.peek?,
      TokenSequence.prepend, TokenSequence.remaining, goesOn]
  simp only [read, tokens_eq]
  rfl

/-- Sessions with the same previous value read a request alike. -/
theorem read_congr (same : session.previous = other.previous)
    (text : String) : session.read text = other.read text := by
  unfold read
  rw [same]

/-- What defines a function in one session defines it in all. -/
theorem read_eq_definition {function : FunctionDefinition}
    (read_eq : session.read text = .ok (.definition function))
    (other : Session) : other.read text = .ok (.definition function) := by
  cases scanned : Token.scan 1 text with
  | error error =>
      simp only [read, TokenSequence.ofRequest, TokenSequence.scan, scanned]
        at read_eq
      cases read_eq
  | ok tokens =>
      cases tokens with
      | nil =>
          rw [read_of_nil session scanned] at read_eq
          obtain ⟨_, _, impossible, _⟩ :=
            Statement.isKeyword_of_parse read_eq
          cases impossible
      | cons first rest =>
          by_cases begins : first.kind.beginsOperand = true
          · rw [read_of_beginsOperand _ scanned begins] at read_eq ⊢
            exact read_eq
          · rw [Bool.not_eq_true] at begins
            rw [read_of_not_beginsOperand _ scanned begins] at read_eq
            obtain ⟨keyword, rest, tokens_eq, isKeyword⟩ :=
              Statement.isKeyword_of_parse read_eq
            cases tokens_eq
            cases isKeyword.kind

/-- The session in which a function is registered. -/
def define (session : Session) (function : FunctionDefinition) : Session :=
  { session with functions := session.functions.define function }

@[simp] theorem limits_define (session : Session)
    (function : FunctionDefinition) :
    (session.define function).limits = session.limits :=
  rfl

@[simp] theorem granted_define (session : Session)
    (function : FunctionDefinition) :
    (session.define function).granted = session.granted :=
  rfl

@[simp] theorem previous_define (session : Session)
    (function : FunctionDefinition) :
    (session.define function).previous = session.previous :=
  rfl

theorem evaluate_of_not_granted (session : Session)
    (ungranted : ¬session.granted = true) (text : String) :
    session.evaluate text =
      (.error (.ofRuntime (.stackUnavailable session.limits.stackSize)),
        session) := by
  rw [evaluate, if_neg ungranted]

/-- A request that is read as a statement ends as the statement does. -/
theorem evaluate_eq_execute {statement : Statement}
    (granted : session.granted = true)
    (read_eq : session.read text = .ok statement) :
    session.evaluate text =
      ((session.execute statement).1.mapError .ofRuntime,
        (session.execute statement).2) := by
  simp only [evaluate, granted, if_true, read_eq]

theorem evaluate_definition {function : FunctionDefinition}
    (granted : session.granted = true)
    (read_eq : session.read text = .ok (.definition function)) :
    session.evaluate text =
      (.ok (.defined function.signature), session.define function) := by
  rw [evaluate_eq_execute granted read_eq]
  rfl

/-- A request that is read as an expression ends as the expression does. -/
theorem evaluate_of_read {session : Session} {text : String} {expression : Expr}
    (granted : session.granted = true)
    (read_eq : session.read text = .ok (.expression expression)) :
    let result := (Evaluator.fresh session.functions session.limits).evaluate
      expression session.environment
    session.evaluate text =
      match result.outcome with
      | .error error => (.error (.ofRuntime error), session)
      | .ok value =>
        (.ok (.value value),
          { session with
            environment := result.environment
            previous := value }) := by
  intro result
  have execute_eq : session.execute (.expression expression) =
      match result.outcome with
      | .error error => (.error error, session)
      | .ok value =>
        (.ok (.value value),
          { session with
            environment := result.environment
            previous := value }) :=
    rfl
  rw [evaluate_eq_execute granted read_eq, execute_eq]
  cases result.outcome <;> rfl

/-- The ways in which a session may answer a request and go on from it. -/
inductive Answers (session : Session) (text : String) :
    Except Error Outcome × Session → Prop
  | refused (error : Error) : Answers session text (.error error, session)
  | defined {function} (granted : session.granted = true)
      (read_eq : session.read text = .ok (.definition function)) :
      Answers session text
        (.ok (.defined function.signature), session.define function)
  | evaluated {expression value} (granted : session.granted = true)
      (read_eq : session.read text = .ok (.expression expression))
      (outcome_eq : ((Evaluator.fresh session.functions session.limits).evaluate
        expression session.environment).outcome = .ok value) :
      Answers session text
        (.ok (.value value),
          { session with
            environment :=
              ((Evaluator.fresh session.functions session.limits).evaluate
                expression session.environment).environment
            previous := value })

theorem answers_evaluate (session : Session) (text : String) :
    Answers session text (session.evaluate text) := by
  by_cases granted : session.granted = true
  · cases read_eq : session.read text with
    | error error =>
        simp only [evaluate, granted, if_true, read_eq]
        exact .refused _
    | ok statement =>
        cases statement with
        | definition function =>
            rw [evaluate_definition granted read_eq]
            exact .defined granted read_eq
        | expression expression =>
            rw [evaluate_of_read granted read_eq]
            cases outcome_eq : ((Evaluator.fresh session.functions
                session.limits).evaluate expression
                session.environment).outcome with
            | error error => exact .refused _
            | ok value => exact .evaluated granted read_eq outcome_eq
  · rw [evaluate_of_not_granted session granted]
    exact .refused _

/-- Besides the stack, only the evaluation of an expression can go wrong at
runtime. -/
theorem outcome_of_evaluate_eq_error {after : Session} {error : RuntimeError}
    (answer : session.evaluate text = (.error (.ofRuntime error), after)) :
    error = .stackUnavailable session.limits.stackSize ∨
      ∃ expression, session.read text = .ok (.expression expression) ∧
        ((Evaluator.fresh session.functions session.limits).evaluate expression
          session.environment).outcome = .error error := by
  by_cases granted : session.granted = true
  · right
    cases read_eq : session.read text with
    | error syntaxError =>
        simp only [evaluate, granted, if_true, read_eq] at answer
        cases answer
    | ok statement =>
        cases statement with
        | definition function =>
            rw [evaluate_definition granted read_eq] at answer
            cases answer
        | expression expression =>
            refine ⟨expression, rfl, ?_⟩
            rw [evaluate_of_read granted read_eq] at answer
            cases outcome_eq : ((Evaluator.fresh session.functions
                session.limits).evaluate expression
                session.environment).outcome with
            | error other =>
                simp only [outcome_eq] at answer
                cases answer
                rfl
            | ok value =>
                simp only [outcome_eq] at answer
                cases answer
  · left
    rw [evaluate_of_not_granted session granted] at answer
    cases answer
    rfl

/-- No request changes the limits. -/
@[simp] theorem limits_evaluate (session : Session) (text : String) :
    (session.evaluate text).2.limits = session.limits := by
  have answers := answers_evaluate session text
  generalize session.evaluate text = answer at answers ⊢
  cases answers <;> rfl

/-- The system answers as before when it is asked for the next stack. -/
@[simp] theorem granted_evaluate (session : Session) (text : String) :
    (session.evaluate text).2.granted = session.granted := by
  have answers := answers_evaluate session text
  generalize session.evaluate text = answer at answers ⊢
  cases answers <;> rfl

/-- A request with a value is an expression, and only the variables and the
previous value change. -/
theorem evaluate_eq_value {after : Session} {value : Int64}
    (answer : session.evaluate text = (.ok (.value value), after)) :
    session.granted = true ∧
      ∃ expression, session.read text = .ok (.expression expression) ∧
        let result :=
          (Evaluator.fresh session.functions session.limits).evaluate expression
            session.environment
        result.outcome = .ok value ∧
          after =
            { session with
              environment := result.environment
              previous := value } := by
  have answers := answers_evaluate session text
  rw [answer] at answers
  cases answers with
  | evaluated granted read_eq outcome_eq =>
      exact ⟨granted, _, read_eq, outcome_eq, rfl⟩

end Session
end Calculator
