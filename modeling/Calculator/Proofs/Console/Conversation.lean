import Calculator.Proofs.Console.Runs
import Calculator.Proofs.Text.Lines

/-!
# Scripts and interactive sessions

A text may be run as a script or fed to an interactive session by a line editor.
Both make the same requests, which end in the same way.  The interactive session
only adds its banner and what it closes with.
-/

namespace Calculator
namespace Console

/-- The answers to some lines, up to the one that ends the session. -/
def answers (session : Session) (lines : List String) : List Output :=
  (turns 1 session lines).flatMap Turn.replies

/-- The note that the input has come to its end, unless one of its lines reads
`exit` without the blanks around it. -/
def endNote (lines : List String) : List Output :=
  if ∃ line ∈ lines, Text.trim line = "exit" then []
  else [.standard "CTRL-D\n"]

/-- The variables after the requests that some lines make. -/
def finalListing (session : Session) (lines : List String) : List Output :=
  [ .standard "\nThe variables you inserted are as the following:\n\n",
    .standard (session.after (requests lines)).environment.text ]

theorem endsAmong_iff (lines : List String) :
    endsAmong lines = true ↔ ∃ line ∈ lines, Text.trim line = "exit" := by
  simp only [endsAmong, List.any_eq_true, Command.isExit_ofLine,
    decide_eq_true_eq]

theorem farewell_eq_append (session : Session) (lines : List String) :
    farewell (session.after (requests lines)) (endsAmong lines) =
      endNote lines ++ finalListing session lines := by
  simp [farewell, endNote, finalListing, endsAmong_iff]

/-- What an interactive session adds is written to the standard stream. -/
theorem diagnosticText_banner : diagnosticText banner = "" :=
  rfl

theorem diagnosticText_endNote (lines : List String) :
    diagnosticText (endNote lines) = "" := by
  unfold endNote
  split <;> rfl

theorem diagnosticText_finalListing (session : Session) (lines : List String) :
    diagnosticText (finalListing session lines) = "" := by
  simp [diagnosticText, finalListing, Output.diagnosticText, String.join_cons]

section Quiet

variable {host : Host} {fileText? : String → Option String} {text : String}
  {arguments : List String} {options : Options} {session : Session}

theorem run_of_script {script : String} (input : String)
    (understood : Options.ofArguments arguments = .ok options)
    (started : (start host options).2 = .ok session)
    (quiet : options.debugs = false) (named : options.script = some script)
    (found : fileText? script = some text) :
    run fileText? input arguments host =
      ⟨(start host options).1 ++ answers session (Text.lines text), 0⟩ := by
  have readable :
      lines? host fileText? input options = some (Text.lines text) := by
    simp only [lines?, named, found, Option.map_some]
  rw [run_of_lines understood started readable, Turn.outputs_of_quiet quiet]
  simp [opening, closing, named, answers]

theorem run_of_input {input : String}
    (understood : Options.ofArguments arguments = .ok options)
    (started : (start host options).2 = .ok session)
    (quiet : options.debugs = false) (unnamed : options.script = none) :
    let lines := host.lines input
    run fileText? input arguments host =
      ⟨(start host options).1 ++ banner ++ answers session lines ++
        (endNote lines ++ finalListing session lines), 0⟩ := by
  have readable :
      lines? host fileText? input options = some (host.lines input) := by
    simp only [lines?, unnamed]
  rw [run_of_lines understood started readable, Turn.outputs_of_quiet quiet]
  simp [opening, closing, unnamed, answers, farewell_eq_append]

end Quiet

end Console
end Calculator
