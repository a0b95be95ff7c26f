import Calculator.Console.Inspection
import Calculator.Console.Options
import Calculator.Session.Prelude
import Calculator.Text.Blank
import Calculator.Text.Quoted

/-!
# The console

A run of the program: it reads its arguments, announces the prelude and answers
the lines of a script or of its standard input.  Each line is a command, a
request or blank.

The system around a run grants stacks, holds the script and edits the lines of
the input.  Of the line editor, only the lines that it yields are known here, not
its prompt, its history, interruptions or what may go wrong with it.
-/

namespace Calculator
namespace Console

/-- What a line asks for. -/
inductive Command
  | blank
  | exit
  | listVariables
  | listFunctions
  | request (text : String)
  deriving DecidableEq

namespace Command

/-- What a line asks for once the blanks around it are dropped. -/
def ofLine (line : String) : Command :=
  let text := Text.trim line
  if text = "" then .blank
  else if text = "exit" then .exit
  else if text = ":vars" then .listVariables
  else if text = ":funcs" then .listFunctions
  else .request text

end Command

/-- The answer to one or more lines: what is written, the session afterwards and
whether it ends there. -/
structure Answer where
  outputs : List Output
  session : Session
  ends : Bool

/-- The line that reports a failed request. -/
def failureLine (error : Error) : String :=
  "error [" ++ error.kind.label ++ "]: " ++ error.message ++ "\n"

/-- What is written about the outcome of a request. -/
def outcomeOutput : Except Error Outcome → Output
  | .ok outcome => .standard (outcome.text ++ "\n")
  | .error error => .diagnostic (failureLine error)

/-- Answers a command. -/
def Command.answer (debugs : Bool) (session : Session) : Command → Answer
  | .blank => ⟨[], session, false⟩
  | .exit => ⟨[], session, true⟩
  | .listVariables => ⟨[.standard session.environment.text], session, false⟩
  | .listFunctions => ⟨[.standard session.functions.text], session, false⟩
  | .request text =>
    let inspection := if debugs then inspect session.previous text else []
    let answered := session.evaluate text
    ⟨inspection ++ [outcomeOutput answered.1], answered.2, false⟩

/-- Answers a line. -/
def answer (debugs : Bool) (session : Session) (line : String) : Answer :=
  (Command.ofLine line).answer debugs session

/-- What is written before the line of a script while debugging. -/
def announceLine (debugs : Bool) (number : Nat) : List Output :=
  if debugs then [.diagnostic s!"[line {number}]\n"] else []

/-- Answers the lines of a script, of which the first has the given number,
until one of them ends the session. -/
def answerAll (debugs : Bool) (number : Nat) (session : Session) :
    List String → Answer
  | [] => ⟨[], session, false⟩
  | line :: lines =>
    let first := answer debugs session line
    let outputs := announceLine debugs number ++ first.outputs
    if first.ends then { first with outputs }
    else
      let rest := answerAll debugs (number + 1) first.session lines
      { rest with outputs := outputs ++ rest.outputs }

/-- What a run is given by the system around it. -/
structure Host where
  /-- Whether the system grants a stack of so many bytes. -/
  grants : Nat → Bool := Limits.addressable
  /-- The lines that the line editor yields of an input. -/
  lines : String → List String := Text.lines

/-- Loads the prelude and announces its functions; a failure comes with its
wording. -/
def openWithPrelude (session : Session) : List Output × Except String Session :=
  let heading := Output.standard
    "Here are some functions that are already defined for you.\n\n"
  match session.loadPrelude with
  | (.error error, _) => ([heading], .error error.message)
  | (.ok signatures, session) =>
    let lines := signatures.map fun signature =>
      Output.standard ("Define " ++ signature.text ++ "\n")
    (heading :: (lines ++ [.standard "\n"]), .ok session)

/-- The session that a run starts with, and what is written about it. -/
def start (host : Host) (options : Options) :
    List Output × Except String Session :=
  let session : Session := { grants := host.grants }
  if options.loadsPrelude then openWithPrelude session else ([], .ok session)

/-- What an interactive session opens with. -/
def banner : List Output :=
  [.standard
    "Type 'exit' to leave, ':vars' or ':funcs' to list what is defined.\n\n"]

/-- What an interactive session closes with: a note if the input has come to its
end before a line ended the session, and the variables. -/
def farewell (session : Session) (ends : Bool) : List Output :=
  (if ends then [] else [.standard "CTRL-D\n"]) ++
    [ .standard "\nThe variables you inserted are as the following:\n\n",
      .standard session.environment.text ]

/-- An interactive session that waits for a line. -/
structure Dialogue where
  session : Session
  debugs : Bool

namespace Dialogue

/-- Takes what the line editor yields, which is a line or the end of the input:
what is written then, and the dialogue that waits for the next line unless it is
over. -/
def feed (dialogue : Dialogue) : Option String → List Output × Option Dialogue
  | none => (farewell dialogue.session false, none)
  | some line =>
    let answered := answer dialogue.debugs dialogue.session line
    if answered.ends then
      (answered.outputs ++ farewell answered.session true, none)
    else (answered.outputs, some { dialogue with session := answered.session })

/-- All that is written while some lines are fed one after the other, and then
the end of the input unless one of them ends the dialogue. -/
def outputs (dialogue : Dialogue) : List String → List Output
  | [] => (dialogue.feed none).1
  | line :: lines =>
    match dialogue.feed (some line) with
    | (written, none) => written
    | (written, some after) => written ++ after.outputs lines

end Dialogue

/-- What is written if the run cannot go on. -/
def abort (reason : String) : Output :=
  .diagnostic ("Error: " ++ Text.quoted reason ++ "\n")

/-- The reason for which a script cannot be run. -/
def notFound (script : String) : String :=
  script ++ " not found. No such file or directory."

/-- Answers the lines of a script. -/
def runScript (options : Options) (session : Session) (contents : String) :
    List Output :=
  (answerAll options.debugs 1 session (Text.lines contents)).outputs

/-- Where a run first needs something of what it is given besides its arguments.
-/
inductive Launch
  /-- The run needs nothing any more. -/
  | finished (report : Report)
  /-- The run needs the text of a script, if there is one. -/
  | script (name : String) (resume : Option String → Report)
  /-- The run has written something and waits for lines. -/
  | interactive (written : List Output) (dialogue : Dialogue)

/-- The beginning of a run with the given arguments. -/
def launch (host : Host) (arguments : List String) : Launch :=
  match Options.ofArguments arguments with
  | .error reason => .finished ⟨[abort reason], 1⟩
  | .ok options =>
    let (opening, started) := start host options
    match started with
    | .error reason => .finished ⟨opening ++ [abort reason], 1⟩
    | .ok session =>
      match options.script with
      | none => .interactive (opening ++ banner) ⟨session, options.debugs⟩
      | some name => .script name fun
        | none => ⟨opening ++ [abort (notFound name)], 1⟩
        | some contents => ⟨opening ++ runScript options session contents, 0⟩

/-- A run of the program with the given files, standard input and arguments. -/
def run (fileText? : String → Option String) (input : String)
    (arguments : List String) (host : Host := {}) : Report :=
  match launch host arguments with
  | .finished report => report
  | .script name resume => resume (fileText? name)
  | .interactive written dialogue =>
    ⟨written ++ dialogue.outputs (host.lines input), 0⟩

end Console
end Calculator
