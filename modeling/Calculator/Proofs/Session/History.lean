import Calculator.Proofs.Session.Requests

/-!
# Runs of requests

What has become of a session after some requests.  The requests that failed
might as well not have been made.  Of the others, the session keeps the last
definition of every name, the last value and the variables.
-/

namespace Calculator

/-- A request, how it was read and how it was answered. -/
structure Exchange where
  text : String
  reading : Except SyntaxError Statement
  answer : Except Error Outcome

namespace Exchange

/-- Whether the request was answered without an error. -/
def succeeds (exchange : Exchange) : Bool :=
  exchange.answer.isOk

/-- The function that the request defined, if it has the given name. -/
def definition? (name : String) (exchange : Exchange) :
    Option FunctionDefinition :=
  match exchange.reading, exchange.answer with
  | .ok (.definition function), .ok _ =>
      if function.name.text = name then some function else none
  | _, _ => none

/-- The value of the request, if it was an expression that had one. -/
def value? (exchange : Exchange) : Option Int64 :=
  match exchange.answer with
  | .ok (.value value) => some value
  | _ => none

theorem definition?_of_error (name text : String)
    (reading : Except SyntaxError Statement) (error : Error) :
    definition? name ⟨text, reading, .error error⟩ = none := by
  cases reading with
  | error _ => rfl
  | ok statement => cases statement <;> rfl

end Exchange

namespace Session

/-- The exchange that a request leads to. -/
def exchange (session : Session) (text : String) : Exchange :=
  ⟨text, session.read text, (session.evaluate text).1⟩

@[simp] theorem text_exchange (session : Session) (text : String) :
    (session.exchange text).text = text :=
  rfl

/-- The exchanges that some requests lead to, one after the other. -/
def transcript (session : Session) : List String → List Exchange
  | [] => []
  | text :: rest =>
      session.exchange text :: (session.evaluate text).2.transcript rest

/-- The session after some requests. -/
def after (session : Session) (requests : List String) : Session :=
  requests.foldl (fun current text => (current.evaluate text).2) session

/-- The requests among some that succeed. -/
def successful (session : Session) (requests : List String) : List String :=
  ((session.transcript requests).filter Exchange.succeeds).map Exchange.text

variable {session : Session} {text : String}

/-! What one request changes. -/

/-- A request that fails changes nothing. -/
theorem evaluate_of_not_succeeds
    (fails : (session.exchange text).succeeds = false) :
    (session.evaluate text).2 = session := by
  have answers := answers_evaluate session text
  unfold exchange at fails
  generalize session.evaluate text = answer at answers fails ⊢
  cases answers with
  | refused _ => rfl
  | defined _ _ => cases fails
  | evaluated _ _ _ => cases fails

/-- Only a definition of its own name changes the function of a name. -/
theorem find?_evaluate (name : String) (session : Session) (text : String) :
    (session.evaluate text).2.functions.find? name =
      ((session.exchange text).definition? name).or
        (session.functions.find? name) := by
  have answers := answers_evaluate session text
  unfold exchange
  generalize session.evaluate text = answer at answers ⊢
  cases answers with
  | refused error => rw [Exchange.definition?_of_error, Option.none_or]
  | defined _ read_eq =>
      rw [read_eq]
      simp only [define, FunctionTable.find?_define, Exchange.definition?]
      split
      · rfl
      · rfl
  | evaluated _ read_eq _ =>
      rw [read_eq]
      rfl

/-- Only a value changes the previous value. -/
theorem previous_evaluate (session : Session) (text : String) :
    some (session.evaluate text).2.previous =
      (session.exchange text).value?.or (some session.previous) := by
  have answers := answers_evaluate session text
  unfold exchange
  generalize session.evaluate text = answer at answers ⊢
  cases answers with
  | refused _ => rfl
  | defined _ _ => rfl
  | evaluated _ _ _ => rfl

/-! What a run of requests changes. -/

theorem transcript_cons (session : Session) (text : String)
    (rest : List String) :
    session.transcript (text :: rest) =
      session.exchange text :: (session.evaluate text).2.transcript rest :=
  rfl

theorem after_cons (session : Session) (text : String) (rest : List String) :
    session.after (text :: rest) = (session.evaluate text).2.after rest := by
  simp only [after, List.foldl_cons]

theorem successful_cons_of_succeeds
    (succeeds : (session.exchange text).succeeds = true) (rest : List String) :
    session.successful (text :: rest) =
      text :: (session.evaluate text).2.successful rest := by
  simp only [successful, transcript_cons, List.filter_cons, succeeds, if_true,
    List.map_cons, text_exchange]

theorem successful_cons_of_fails
    (fails : (session.exchange text).succeeds = false) (rest : List String) :
    session.successful (text :: rest) = session.successful rest := by
  simp only [successful, transcript_cons, List.filter_cons, fails,
    Bool.false_eq_true, if_false, evaluate_of_not_succeeds fails]

/-- Made alone, the requests that succeed are read and answered as before. -/
theorem transcript_successful (session : Session) (requests : List String) :
    session.transcript (session.successful requests) =
      (session.transcript requests).filter Exchange.succeeds := by
  induction requests generalizing session with
  | nil => rfl
  | cons text rest induction =>
      rw [transcript_cons]
      cases succeeds_eq : (session.exchange text).succeeds with
      | true =>
          rw [successful_cons_of_succeeds succeeds_eq, transcript_cons,
            induction, List.filter_cons_of_pos succeeds_eq]
      | false =>
          rw [successful_cons_of_fails succeeds_eq, induction,
            List.filter_cons_of_neg (Bool.eq_false_iff.mp succeeds_eq),
            evaluate_of_not_succeeds succeeds_eq]

/-- Made alone, the requests that succeed leave the same session. -/
theorem after_successful (session : Session) (requests : List String) :
    session.after (session.successful requests) = session.after requests := by
  induction requests generalizing session with
  | nil => rfl
  | cons text rest induction =>
      rw [after_cons]
      cases succeeds_eq : (session.exchange text).succeeds with
      | true =>
          rw [successful_cons_of_succeeds succeeds_eq, after_cons, induction]
      | false =>
          rw [successful_cons_of_fails succeeds_eq, induction,
            evaluate_of_not_succeeds succeeds_eq]

/-- What each request may replace is, after a run, what replaced it last. -/
theorem observe_after {Observed : Type} (observe : Session → Option Observed)
    (change? : Exchange → Option Observed)
    (step : ∀ session text, observe (Session.evaluate session text).2 =
      (change? (session.exchange text)).or (observe session))
    (session : Session) (requests : List String) :
    observe (session.after requests) =
      ((session.transcript requests).reverse.findSome? change?).or
        (observe session) := by
  induction requests generalizing session with
  | nil => rfl
  | cons text rest induction =>
      rw [after_cons, induction, step, transcript_cons, List.reverse_cons,
        List.findSome?_append, List.findSome?_singleton, Option.or_assoc]

/-- Leaving out the requests that fail changes no other exchange and not the
session in the end.  There each name has the function that was defined for it
last, and the previous value is the last value. -/
theorem run_without_failures (session : Session) (requests : List String) :
    let exchanges := session.transcript requests
    let final := session.after requests
    session.transcript (session.successful requests) =
        exchanges.filter Exchange.succeeds ∧
      session.after (session.successful requests) = final ∧
      (∀ name, final.functions.find? name =
        (exchanges.reverse.findSome? (Exchange.definition? name)).or
          (session.functions.find? name)) ∧
      final.previous =
        (exchanges.reverse.findSome? Exchange.value?).getD
          session.previous := by
  intro exchanges final
  refine ⟨transcript_successful session requests,
    after_successful session requests, ?_, ?_⟩
  · intro name
    exact observe_after (fun session => session.functions.find? name)
      (Exchange.definition? name) (find?_evaluate name) session requests
  · have last : some final.previous =
        (exchanges.reverse.findSome? Exchange.value?).or
          (some session.previous) :=
      observe_after (fun session => some session.previous) Exchange.value?
        previous_evaluate session requests
    rw [Option.or_some] at last
    exact Option.some.inj last

end Session
end Calculator
