import Calculator.Proofs.Console.Runs

/-!
# Debugging

Debugging only observes.  A run that is debugged writes all that it would write
otherwise, in the same order, and besides only to the diagnostic stream.  What
it shows of a request is what the session reads the request as.
-/

namespace Calculator
namespace Console

/-! ### Outputs with observations among them -/

namespace Output

/-- The message for the diagnostic stream. -/
def diagnostic? : Output → Option String
  | .standard _ => none
  | .diagnostic text => some text

end Output

/-- The messages of a run, in order. -/
def Report.diagnostics (report : Report) : List String :=
  report.outputs.filterMap Output.diagnostic?

/-- The second outputs are the first with nothing added but messages for the
diagnostic stream. -/
structure Observes (quiet loud : List Output) : Prop where
  sublist : quiet.Sublist loud
  standardText_eq : standardText loud = standardText quiet

namespace Observes

variable {quiet loud quiet' loud' : List Output}

theorem refl (outputs : List Output) : Observes outputs outputs :=
  ⟨List.Sublist.refl outputs, rfl⟩

theorem append (first : Observes quiet loud) (second : Observes quiet' loud') :
    Observes (quiet ++ quiet') (loud ++ loud') :=
  ⟨first.sublist.append second.sublist, by
    rw [standardText_append, standardText_append, first.standardText_eq,
      second.standardText_eq]⟩

theorem flatMap {quiet loud : Turn → List Output}
    (observes : ∀ turn, Observes (quiet turn) (loud turn)) (turns : List Turn) :
    Observes (turns.flatMap quiet) (turns.flatMap loud) := by
  induction turns with
  | nil => exact refl []
  | cons turn turns induction =>
      rw [List.flatMap_cons, List.flatMap_cons]
      exact (observes turn).append induction

end Observes

theorem observes_diagnostics (messages : List String) :
    Observes [] (messages.map .diagnostic) := by
  refine ⟨List.nil_sublist _, ?_⟩
  induction messages with
  | nil => rfl
  | cons message messages induction =>
      rw [List.map_cons, standardText, List.map_cons, String.join_cons]
      exact (String.empty_append).trans induction

theorem observes_announceLine (debugs : Bool) (number : Nat) :
    Observes [] (announceLine debugs number) := by
  cases debugs with
  | false => exact .refl []
  | true => exact observes_diagnostics [s!"[line {number}]\n"]

theorem Turn.observes_inspection (turn : Turn) :
    Observes [] turn.inspection := by
  unfold Turn.inspection
  cases turn.command with
  | request text =>
      have shown := observes_diagnostics
        ((inspectionLines turn.session.previous text).map (· ++ "\n"))
      rw [List.map_map] at shown
      exact shown
  | _ => exact .refl []

/-- Whatever the options are, a line is answered all the same. -/
theorem Turn.observes_outputs (options : Options) (turn : Turn) :
    Observes turn.replies (turn.outputs options) := by
  have announced : Observes [] (if options.script.isSome then
      announceLine options.debugs turn.number else []) := by
    split
    · exact observes_announceLine _ _
    · exact .refl []
  have inspected :
      Observes [] (if options.debugs then turn.inspection else []) := by
    split
    · exact turn.observes_inspection
    · exact .refl []
  have replies_eq : turn.replies = [] ++ ([] ++ turn.replies) := by
    simp only [List.nil_append]
  rw [replies_eq, Turn.outputs]
  exact announced.append (inspected.append (.refl turn.replies))

/-! ### What is shown of a request -/

/-- The line that shows the tokens of a request. -/
def tokensLine (sequence : TokenSequence) : String :=
  "tokens: " ++ " ".intercalate (sequence.tokens.map Token.text)

/-- Some lines show how a session reads a request, and the session answers it by
what was read: a syntax error, or the statement that is carried out. -/
inductive Shows (session : Session) (request : String) : List String → Prop
  | unscanned {error}
      (tokens_eq : TokenSequence.ofRequest session.previous request =
        .error error)
      (answered : session.evaluate request =
        (.error (.ofSyntax error), session)) :
      Shows session request ["tokens: " ++ error.message]
  | unparsed {sequence error}
      (tokens_eq : TokenSequence.ofRequest session.previous request =
        .ok sequence)
      (parsed : sequence.parse = .error error)
      (answered : session.evaluate request =
        (.error (.ofSyntax error), session)) :
      Shows session request [tokensLine sequence, "parse:  " ++ error.message]
  | read {sequence statement}
      (tokens_eq : TokenSequence.ofRequest session.previous request =
        .ok sequence)
      (parsed : sequence.parse = .ok statement)
      (answered : session.evaluate request =
        ((session.execute statement).1.mapError .ofRuntime,
          (session.execute statement).2)) :
      Shows session request (tokensLine sequence :: statementLines statement)

theorem shows_inspectionLines {session : Session}
    (granted : session.granted = true) (request : String) :
    Shows session request (inspectionLines session.previous request) := by
  have read_eq : session.read request =
      TokenSequence.ofRequest session.previous request >>=
        TokenSequence.parse :=
    rfl
  have evaluate_of_error {error} (failed : session.read request = .error error) :
      session.evaluate request = (.error (.ofSyntax error), session) := by
    rw [Session.evaluate, if_pos granted, failed]
  unfold inspectionLines
  cases tokens_eq : TokenSequence.ofRequest session.previous request with
  | error error =>
      rw [tokens_eq] at read_eq
      exact .unscanned tokens_eq (evaluate_of_error read_eq)
  | ok sequence =>
      rw [tokens_eq] at read_eq
      dsimp only
      cases parsed : sequence.parse with
      | error error =>
          exact .unparsed tokens_eq parsed
            (evaluate_of_error (read_eq.trans parsed))
      | ok statement =>
          exact .read tokens_eq parsed
            (Session.evaluate_eq_execute granted (read_eq.trans parsed))

/-! ### Where the turns are -/

theorem granted_effect (session : Session) (command : Command) :
    (command.effect session).granted = session.granted := by
  unfold Command.effect
  cases command.request? with
  | none => rfl
  | some text =>
      rw [Option.toList_some, Session.after_singleton, Session.granted_evaluate]

theorem granted_of_mem_turns {turn : Turn} {number : Nat} {session : Session}
    {lines : List String} (member : turn ∈ turns number session lines) :
    turn.session.granted = session.granted := by
  induction lines generalizing number session with
  | nil => cases member
  | cons line lines induction =>
      rw [turns, List.mem_cons] at member
      rcases member with rfl | member
      · rfl
      · split at member
        · cases member
        · rw [induction member, granted_effect]

/-- The turns of some lines begin with those of the lines in front, unless one
of these ends the session. -/
theorem turns_append {before : List String}
    (goesOn : endsAmong before = false) (number : Nat) (session : Session)
    (later : List String) :
    turns number session (before ++ later) =
      turns number session before ++
        turns (number + before.length) (session.after (requests before))
          later := by
  induction before generalizing number session with
  | nil => rfl
  | cons line before induction =>
      rw [endsAmong_cons, Bool.or_eq_false_iff] at goesOn
      simp only [List.cons_append, turns, requests, goesOn.1,
        Bool.false_eq_true, if_false, induction goesOn.2, Session.after_append,
        Command.effect, List.length_cons]
      rw [Nat.add_right_comm, Nat.add_assoc]

/-- A line is answered in the session that the requests before it have left. -/
theorem mem_turns {before later : List String} {line : String}
    (goesOn : endsAmong before = false) (number : Nat) (session : Session) :
    ⟨number + before.length, session.after (requests before), line⟩ ∈
      turns number session (before ++ line :: later) := by
  rw [turns_append goesOn, List.mem_append]
  exact .inr List.mem_cons_self

/-! ### Runs with and without debugging -/

section Runs

variable {host : Host} {fileText? : String → Option String} {input : String}
  {arguments lines : List String} {options : Options} {session : Session}

/-- A request is answered by the session of its turn. -/
theorem Turn.replies_of_request {turn : Turn} {request : String}
    (asked : turn.command = .request request) :
    turn.replies = [outcomeOutput (turn.session.evaluate request).1] := by
  rw [Turn.replies, asked]
  simp only [Command.replies, Command.answer, Bool.false_eq_true, if_false,
    List.nil_append]

/-- What is shown of a request is how the session of its turn reads it. -/
theorem Turn.exists_shows {turn : Turn} {request : String}
    (granted : turn.session.granted = true)
    (asked : turn.command = .request request) :
    ∃ lines, turn.inspection = lines.map (Output.diagnostic <| · ++ "\n") ∧
      Shows turn.session request lines := by
  refine ⟨inspectionLines turn.session.previous request, ?_,
    shows_inspectionLines granted request⟩
  rw [Turn.inspection, asked]
  rfl

/-- With debugging asked for, a run that has lines to answer opens and closes in
the same way and answers the same turns. -/
theorem run_of_lines_of_debugs (understood :
      Options.ofArguments arguments = .ok { options with debugs := true })
    (started : (start host options).2 = .ok session)
    (found : lines? host fileText? input options = some lines) :
    run fileText? input arguments host =
      ⟨opening host options ++ (turns 1 session lines).flatMap
          (Turn.outputs { options with debugs := true }) ++
        closing options session lines, 0⟩ := by
  have ran := run_of_lines understood started found
  exact ran

/-- To ask for debugging only adds messages, whether the run comes to answer
lines or not. -/
theorem observes_run {before after : List String}
    (plain : "--debug" ∉ before ++ after) :
    let quiet := run fileText? input (before ++ after) host
    let loud := run fileText? input (before ++ "--debug" :: after) host
    Observes quiet.outputs loud.outputs ∧ loud.exitCode = quiet.exitCode := by
  intro quiet loud
  have inserted := Options.ofArguments_insert_debug before after
  cases understood : Options.ofArguments (before ++ after) with
  | error reason =>
      rw [understood] at inserted
      have same : loud = quiet :=
        (run_of_refused inserted).trans (run_of_refused understood).symm
      rw [same]
      exact ⟨.refl _, rfl⟩
  | ok options =>
      rw [understood] at inserted
      -- Debugging has no part in how a session is opened.
      cases started : (start host options).2 with
      | error reason =>
          have same : loud = quiet :=
            (run_of_unstarted inserted started).trans
              (run_of_unstarted understood started).symm
          rw [same]
          exact ⟨.refl _, rfl⟩
      | ok session =>
          cases found : lines? host fileText? input options with
          | none =>
              obtain ⟨script, named, missing⟩ := exists_of_lines?_eq_none found
              have same : loud = quiet :=
                (run_of_notFound inserted started named missing).trans
                  (run_of_notFound understood started named missing).symm
              rw [same]
              exact ⟨.refl _, rfl⟩
          | some lines =>
              have quiet_eq := run_of_lines understood started found
              rw [Turn.outputs_of_quiet
                (Options.debugs_of_ofArguments plain understood)] at quiet_eq
              have loud_eq := run_of_lines_of_debugs inserted started found
              have observes : Observes
                  (opening host options ++
                    (turns 1 session lines).flatMap Turn.replies ++
                      closing options session lines)
                  (opening host options ++
                    (turns 1 session lines).flatMap
                      (Turn.outputs { options with debugs := true }) ++
                      closing options session lines) :=
                .append (.append (.refl _)
                  (.flatMap (Turn.observes_outputs _) _)) (.refl _)
              rw [show quiet = _ from quiet_eq, show loud = _ from loud_eq]
              exact ⟨observes, rfl⟩

end Runs

/-- To ask for debugging changes neither what is written to the standard stream
nor how the run ends, and the messages of the run that is not debugged keep their
order.  Where lines are answered, whatever the line editor makes of the input, and
the standard stack is granted, both runs go through the same turns.  A request
among them is shown as the session reads it that then answers it. -/
theorem run_debug {host : Host} {fileText? : String → Option String}
    {input : String} {before after : List String}
    (plain : "--debug" ∉ before ++ after) :
    let quiet := run fileText? input (before ++ after) host
    let loud := run fileText? input (before ++ "--debug" :: after) host
    loud.standardText = quiet.standardText ∧
    loud.exitCode = quiet.exitCode ∧
    quiet.diagnostics.Sublist loud.diagnostics ∧
    (host.GrantsStandard →
      ∀ options lines, Options.ofArguments (before ++ after) = .ok options →
        lines? host fileText? input options = some lines →
        ∃ session, (start host options).2 = .ok session ∧
          let debugged : Options := { options with debugs := true }
          quiet.outputs = opening host options ++
            (turns 1 session lines).flatMap Turn.replies ++
              closing options session lines ∧
          loud.outputs = opening host options ++
            (turns 1 session lines).flatMap (Turn.outputs debugged) ++
              closing options session lines ∧
          ∀ earlier line later request, lines = earlier ++ line :: later →
            endsAmong earlier = false →
            Command.ofLine line = .request request →
            let current := session.after (requests earlier)
            let turn : Turn := ⟨1 + earlier.length, current, line⟩
            turn ∈ turns 1 session lines ∧
            turn.replies = [outcomeOutput (current.evaluate request).1] ∧
            ∃ shown,
              turn.inspection = shown.map (Output.diagnostic <| · ++ "\n") ∧
              Shows current request shown) := by
  intro quiet loud
  have observes : Observes quiet.outputs loud.outputs ∧
      loud.exitCode = quiet.exitCode :=
    observes_run plain
  refine ⟨observes.1.standardText_eq, observes.2,
    observes.1.sublist.filterMap Output.diagnostic?, ?_⟩
  intro grants options lines understood found
  have inserted := Options.ofArguments_insert_debug before after
  rw [understood] at inserted
  obtain ⟨session, started, granted⟩ := exists_start grants options
  have quiet_eq := run_of_lines understood started found
  rw [Turn.outputs_of_quiet
    (Options.debugs_of_ofArguments plain understood)] at quiet_eq
  have loud_eq := run_of_lines_of_debugs inserted started found
  refine ⟨session, started, congrArg Report.outputs quiet_eq,
    congrArg Report.outputs loud_eq, ?_⟩
  intro earlier line later request lines_eq goesOn asked current turn
  have member : turn ∈ turns 1 session lines :=
    lines_eq ▸ mem_turns goesOn 1 session
  have grantedThen : turn.session.granted = true :=
    (granted_of_mem_turns member).trans granted
  exact ⟨member, Turn.replies_of_request asked,
    Turn.exists_shows grantedThen asked⟩

/-- A line that goes on from the value of the line before is shown with that
value in front, and one that breaks off with its error. -/
theorem run_debug_of_continued_line :
    let host : Host := {}
    let text := "x = 2\n* 3\n2 +\n"
    let files := fun name => if name = "sums.txt" then some text else none
    let quiet := run files "" (["--no-prelude"] ++ ["sums.txt"]) host
    let loud :=
      run files "" (["--no-prelude"] ++ "--debug" :: ["sums.txt"]) host
    let message :=
      "syntax error: unexpected end of input, expected expression\n"
    let current := ({} : Session).after ["x = 2"]
    host.GrantsStandard ∧ "--debug" ∉ ["--no-prelude"] ++ ["sums.txt"] ∧
    loud.standardText = "2\n6\n" ∧
    quiet.diagnostics = ["error [MalformedSyntax]: " ++ message] ∧
    quiet.diagnostics.Sublist loud.diagnostics ∧
    (⟨2, current, "* 3"⟩ : Turn).inspection =
      [ .diagnostic "tokens: NUMBER('2') STAR('*') NUMBER('3')\n",
        .diagnostic "tree:   (2 * 3)\n", .diagnostic "lisp:   (* 2 3)\n" ] ∧
    ∃ shown, Shows current "* 3" shown := by
  intro host text files quiet loud message current
  have grants : host.GrantsStandard := by
    unfold Host.GrantsStandard
    decide
  have plain : "--debug" ∉ ["--no-prelude"] ++ ["sums.txt"] := by decide
  have understood : Options.ofArguments (["--no-prelude"] ++ ["sums.txt"]) =
      .ok { script := some "sums.txt", loadsPrelude := false } := by
    decide
  have quiet_text : quiet.standardText = "2\n6\n" := by decide +kernel
  rcases @run_debug host files "" ["--no-prelude"] ["sums.txt"] plain with
    ⟨same_text, -, sublist, shows⟩
  rcases shows grants _ (Text.lines text) understood rfl with ⟨session, started, -, -, shown⟩
  cases started
  rcases shown ["x = 2"] "* 3" ["2 +"] "* 3" (by decide +kernel) (by decide)
    (by decide) with ⟨-, -, lines, -, shows⟩
  have requests_eq : requests ["x = 2"] = ["x = 2"] := by decide
  rw [requests_eq] at shows
  exact ⟨grants, plain, same_text.trans quiet_text, by decide +kernel, sublist,
    by decide +kernel, lines, shows⟩

end Console
end Calculator
