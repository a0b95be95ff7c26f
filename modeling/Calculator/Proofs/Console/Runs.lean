import Calculator.Proofs.Console.Options
import Calculator.Proofs.Console.Turns
import Calculator.Proofs.Session.Prelude

/-!
# Runs

A run whose arguments are understood opens a session, which cannot fail where the
system grants the stack for it, and answers the lines of a script or of its
standard input turn by turn.  What it writes to either stream is put together
from what its parts write.
-/

namespace Calculator
namespace Console

/-! ### What is written -/

/-- What some outputs write to the standard stream. -/
def standardText (outputs : List Output) : String :=
  String.join (outputs.map Output.standardText)

/-- What some outputs write to the diagnostic stream. -/
def diagnosticText (outputs : List Output) : String :=
  String.join (outputs.map Output.diagnosticText)

@[simp] theorem standardText_append (before after : List Output) :
    standardText (before ++ after) =
      standardText before ++ standardText after := by
  rw [standardText, List.map_append, String.join_append]
  rfl

@[simp] theorem diagnosticText_append (before after : List Output) :
    diagnosticText (before ++ after) =
      diagnosticText before ++ diagnosticText after := by
  rw [diagnosticText, List.map_append, String.join_append]
  rfl

theorem Report.standardText_eq (report : Report) :
    report.standardText = Console.standardText report.outputs :=
  rfl

theorem Report.diagnosticText_eq (report : Report) :
    report.diagnosticText = Console.diagnosticText report.outputs :=
  rfl

/-! ### How a run goes -/

/-- The system grants the stack of the limits that hold unless others are given.
-/
def Host.GrantsStandard (host : Host) : Prop :=
  host.grants Limits.standard.stackSize = true

/-- A run does not fail to open its session, and has the stacks for its requests
granted. -/
theorem exists_start {host : Host} (grants : host.GrantsStandard)
    (options : Options) :
    ∃ session, (start host options).2 = .ok session ∧
      session.granted = true := by
  have granted : Session.granted { grants := host.grants } = true := grants
  unfold start
  dsimp only
  split
  · obtain ⟨signatures, session, loaded, grantedAfter⟩ :=
      Session.exists_signatures_of_defines _ granted
        Session.defines_preludeSources
    refine ⟨session, ?_, grantedAfter⟩
    rw [openWithPrelude, Session.loadPrelude, loaded]
  · exact ⟨_, rfl, granted⟩

/-- The lines that a run answers, if it finds its script. -/
def lines? (host : Host) (fileText? : String → Option String) (input : String)
    (options : Options) : Option (List String) :=
  match options.script with
  | none => some (host.lines input)
  | some script => (fileText? script).map Text.lines

variable {host : Host} {fileText? : String → Option String} {input : String}
  {arguments : List String} {options : Options} {session : Session}

theorem exists_of_lines?_eq_none
    (missing : lines? host fileText? input options = none) :
    ∃ script, options.script = some script ∧ fileText? script = none := by
  unfold lines? at missing
  cases named : options.script with
  | none =>
      rw [named] at missing
      cases missing
  | some script =>
      rw [named] at missing
      exact ⟨script, rfl, Option.map_eq_none_iff.mp missing⟩

/-- What is written before the first line is answered. -/
def opening (host : Host) (options : Options) : List Output :=
  (start host options).1 ++ if options.script.isSome then [] else banner

/-- What is written after the last line was answered. -/
def closing (options : Options) (session : Session) (lines : List String) :
    List Output :=
  if options.script.isSome then []
  else farewell (session.after (requests lines)) (endsAmong lines)

/-- What is written on account of a line. -/
def Turn.outputs (options : Options) (turn : Turn) : List Output :=
  (if options.script.isSome then announceLine options.debugs turn.number
    else []) ++ ((if options.debugs then turn.inspection else []) ++
      turn.replies)

/-- Without debugging, nothing but the answer is written on account of a
line. -/
theorem Turn.outputs_of_quiet (quiet : options.debugs = false) :
    Turn.outputs options = Turn.replies := by
  funext turn
  simp [Turn.outputs, announceLine, quiet]

theorem run_of_refused {reason : String}
    (refused : Options.ofArguments arguments = .error reason) :
    run fileText? input arguments host = ⟨[abort reason], 1⟩ := by
  rw [run, launch, refused]

theorem run_of_unstarted {reason : String}
    (understood : Options.ofArguments arguments = .ok options)
    (failed : (start host options).2 = .error reason) :
    run fileText? input arguments host =
      ⟨(start host options).1 ++ [abort reason], 1⟩ := by
  rw [run, launch, understood]
  simp only [failed]

theorem run_of_notFound {script : String}
    (understood : Options.ofArguments arguments = .ok options)
    (started : (start host options).2 = .ok session)
    (named : options.script = some script) (missing : fileText? script = none) :
    run fileText? input arguments host =
      ⟨(start host options).1 ++ [abort (notFound script)], 1⟩ := by
  rw [run, launch, understood]
  simp only [started, named, missing]

/-- A run that has lines to answer does so turn by turn. -/
theorem run_of_lines {lines : List String}
    (understood : Options.ofArguments arguments = .ok options)
    (started : (start host options).2 = .ok session)
    (found : lines? host fileText? input options = some lines) :
    run fileText? input arguments host =
      ⟨opening host options ++
        (turns 1 session lines).flatMap (Turn.outputs options) ++
          closing options session lines, 0⟩ := by
  rw [run, launch, understood]
  unfold lines? at found
  unfold opening closing
  simp only [started]
  cases named : options.script with
  | none =>
      have outputs_eq : Turn.outputs options = fun turn =>
          (if options.debugs then turn.inspection else []) ++ turn.replies := by
        funext turn
        simp [Turn.outputs, named]
      rw [named] at found
      cases found
      rw [outputs_eq]
      simp [Dialogue.outputs_eq _ 1]
  | some script =>
      have outputs_eq : Turn.outputs options = fun turn =>
          announceLine options.debugs turn.number ++
            ((if options.debugs then turn.inspection else []) ++
              turn.replies) := by
        funext turn
        simp [Turn.outputs, named]
      rw [named] at found
      obtain ⟨text, readable, rfl⟩ := Option.map_eq_some_iff.mp found
      rw [outputs_eq]
      simp [readable, runScript, answerAll_eq]

end Console
end Calculator
