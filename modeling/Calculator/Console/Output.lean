/-!
# Output

What a program run writes, in order, to its two streams: answers to the
standard one, and errors and observations to the diagnostic one.
-/

namespace Calculator
namespace Console

/-- A piece of text for one of the two streams. -/
inductive Output
  | standard (text : String)
  | diagnostic (text : String)
  deriving DecidableEq

namespace Output

/-- The text for the standard stream. -/
def standardText : Output → String
  | .standard text => text
  | .diagnostic _ => ""

/-- The text for the diagnostic stream. -/
def diagnosticText : Output → String
  | .standard _ => ""
  | .diagnostic text => text

end Output

/-- A finished run: what it wrote and its exit code. -/
structure Report where
  outputs : List Output
  exitCode : Nat
  deriving DecidableEq

namespace Report

/-- All that was written to the standard stream. -/
def standardText (report : Report) : String :=
  String.join (report.outputs.map Output.standardText)

/-- All that was written to the diagnostic stream. -/
def diagnosticText (report : Report) : String :=
  String.join (report.outputs.map Output.diagnosticText)

end Report
end Console
end Calculator
