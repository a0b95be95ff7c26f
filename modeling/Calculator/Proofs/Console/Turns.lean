import Calculator.Console
import Calculator.Proofs.Session.History
import Mathlib.Data.List.Basic

/-!
# Turns

A run answers one line after the other, each in the session that the lines
before have left.  A script and a dialogue that is fed with the same lines lead
to the same turns.
-/

namespace Calculator

namespace Session

@[simp] theorem after_nil (session : Session) : session.after [] = session :=
  rfl

@[simp] theorem after_singleton (session : Session) (text : String) :
    session.after [text] = (session.evaluate text).2 := by
  rw [after_cons, after_nil]

theorem after_append (session : Session) (before later : List String) :
    session.after (before ++ later) = (session.after before).after later :=
  List.foldl_append

theorem transcript_append (session : Session) (before later : List String) :
    session.transcript (before ++ later) =
      session.transcript before ++ (session.after before).transcript later := by
  induction before generalizing session with
  | nil => rfl
  | cons text before induction =>
      rw [List.cons_append, transcript_cons, transcript_cons, induction,
        after_cons, List.cons_append]

end Session

namespace Console

/-! ### Commands -/

namespace Command

/-- The request that is made, if it is one. -/
def request? : Command → Option String
  | .request text => some text
  | _ => none

/-- Whether the session is to end. -/
def isExit : Command → Bool
  | .exit => true
  | _ => false

/-- What is written in answer to a command. -/
def replies (session : Session) (command : Command) : List Output :=
  (command.answer false session).outputs

/-- What is shown of a command while debugging. -/
def inspection (session : Session) : Command → List Output
  | .request text => inspect session.previous text
  | _ => []

/-- The session after a command. -/
def effect (session : Session) (command : Command) : Session :=
  session.after command.request?.toList

/-- Debugging shows a command before it is answered and changes nothing else. -/
theorem answer_eq (debugs : Bool) (session : Session) (command : Command) :
    command.answer debugs session =
      ⟨(if debugs then command.inspection session else []) ++
        command.replies session, command.effect session, command.isExit⟩ := by
  cases command with
  | request text =>
      simp only [replies, Command.answer, inspection, effect, request?,
        Option.toList_some, Session.after_singleton, Bool.false_eq_true,
        if_false, List.nil_append, isExit]
  | _ => cases debugs <;> rfl

theorem isExit_ofLine (line : String) :
    (ofLine line).isExit = decide (Text.trim line = "exit") := by
  unfold ofLine
  by_cases blank : Text.trim line = ""
  · simp [blank, isExit]
  · by_cases exits : Text.trim line = "exit"
    · simp [exits, isExit]
    · simp only [blank, exits, if_false, decide_false]
      split
      · rfl
      · split <;> rfl

end Command

/-! ### Lines -/

/-- A line that is answered, its number and the session that answers it. -/
structure Turn where
  number : Nat
  session : Session
  line : String

namespace Turn

/-- What the line asks for. -/
def command (turn : Turn) : Command :=
  Command.ofLine turn.line

/-- What is written in answer to the line. -/
def replies (turn : Turn) : List Output :=
  turn.command.replies turn.session

/-- What is shown of the line while debugging. -/
def inspection (turn : Turn) : List Output :=
  turn.command.inspection turn.session

/-- The exchange that the line leads to, if it is a request. -/
def exchange? (turn : Turn) : Option Exchange :=
  turn.command.request?.map turn.session.exchange

variable (number : Nat) (session : Session) (line : String)

@[simp] theorem replies_mk :
    replies ⟨number, session, line⟩ = (Command.ofLine line).replies session :=
  rfl

@[simp] theorem inspection_mk :
    inspection ⟨number, session, line⟩ =
      (Command.ofLine line).inspection session :=
  rfl

theorem exchange?_mk_toList :
    (exchange? ⟨number, session, line⟩).toList =
      session.transcript (Command.ofLine line).request?.toList := by
  rw [exchange?, command]
  cases (Command.ofLine line).request? <;> rfl

end Turn

/-- The turns of some lines, of which the first has the given number, up to the
one that ends the session. -/
def turns (number : Nat) (session : Session) : List String → List Turn
  | [] => []
  | line :: lines =>
    let command := Command.ofLine line
    ⟨number, session, line⟩ ::
      if command.isExit then []
      else turns (number + 1) (command.effect session) lines

/-- The requests among some lines, up to the line that ends the session. -/
def requests : List String → List String
  | [] => []
  | line :: lines =>
    let command := Command.ofLine line
    command.request?.toList ++ if command.isExit then [] else requests lines

/-- Whether one of the lines ends the session. -/
def endsAmong (lines : List String) : Bool :=
  lines.any fun line => (Command.ofLine line).isExit

theorem endsAmong_cons (line : String) (lines : List String) :
    endsAmong (line :: lines) =
      ((Command.ofLine line).isExit || endsAmong lines) :=
  rfl

/-- The requests of the turns are made one after the other, and nothing else
changes the session. -/
theorem exchanges_turns (number : Nat) (session : Session)
    (lines : List String) :
    (turns number session lines).filterMap Turn.exchange? =
      session.transcript (requests lines) := by
  rw [List.filterMap_eq_flatMap_toList]
  induction lines generalizing number session with
  | nil => rfl
  | cons line lines induction =>
      rw [turns, List.flatMap_cons, Turn.exchange?_mk_toList, requests,
        Session.transcript_append]
      split
      · rfl
      · rw [induction, Command.effect]

/-- The lines of a script are answered turn by turn. -/
theorem answerAll_eq (debugs : Bool) (number : Nat) (session : Session)
    (lines : List String) :
    answerAll debugs number session lines =
      ⟨(turns number session lines).flatMap fun turn =>
          announceLine debugs turn.number ++
            ((if debugs then turn.inspection else []) ++ turn.replies),
        session.after (requests lines), endsAmong lines⟩ := by
  induction lines generalizing number session with
  | nil => rfl
  | cons line lines induction =>
      simp only [answerAll, answer, Command.answer_eq, induction, turns,
        requests, endsAmong_cons, List.flatMap_cons, Session.after_append]
      cases exits : (Command.ofLine line).isExit with
      | true => simp [Command.effect]
      | false => simp [Command.effect]

/-- The lines that a dialogue is fed with are answered turn by turn as well, and
it closes with the session that they have left. -/
theorem Dialogue.outputs_eq (debugs : Bool) (number : Nat) (session : Session)
    (lines : List String) :
    Dialogue.outputs ⟨session, debugs⟩ lines =
      ((turns number session lines).flatMap fun turn =>
          (if debugs then turn.inspection else []) ++ turn.replies) ++
        farewell (session.after (requests lines)) (endsAmong lines) := by
  induction lines generalizing number session with
  | nil => rfl
  | cons line lines induction =>
      simp only [Dialogue.outputs, Dialogue.feed, answer, Command.answer_eq,
        turns, requests, endsAmong_cons, List.flatMap_cons, Session.after_append]
      cases exits : (Command.ofLine line).isExit with
      | true => simp [Command.effect]
      | false => simp [induction (number + 1), Command.effect]

/-- Feeds a dialogue with some lines: what is written meanwhile, and the dialogue
that waits for the next line unless it is over. -/
def Dialogue.feedAll (dialogue : Dialogue) :
    List String → List Output × Option Dialogue
  | [] => ([], some dialogue)
  | line :: lines =>
    match dialogue.feed (some line) with
    | (written, none) => (written, none)
    | (written, some after) =>
      let (later, last) := after.feedAll lines
      (written ++ later, last)

/-- What is written up to some line does not depend on the lines after it.  This
is why lines may be answered as they come. -/
theorem Dialogue.outputs_append (dialogue : Dialogue)
    (earlier later : List String) :
    dialogue.outputs (earlier ++ later) =
      (dialogue.feedAll earlier).1 ++
        (dialogue.feedAll earlier).2.elim [] (·.outputs later) := by
  induction earlier generalizing dialogue with
  | nil => rfl
  | cons line lines induction =>
      rw [List.cons_append, outputs, feedAll]
      rcases dialogue.feed (some line) with ⟨written, next⟩
      cases next with
      | none => exact (List.append_nil written).symm
      | some after => simp only [induction after, List.append_assoc]

end Console
end Calculator
