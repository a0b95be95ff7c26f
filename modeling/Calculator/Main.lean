import Calculator.Console

/-!
# The program

The console on real streams.  A script is read as a whole; lines of the
standard input are answered as they come.
-/

namespace Calculator
namespace Console

/-- Writes a piece of output to its stream. -/
def emit : Output → IO Unit
  | .standard text => do
    let stream ← IO.getStdout
    stream.putStr text
    stream.flush
  | .diagnostic text => do
    let stream ← IO.getStderr
    stream.putStr text
    stream.flush

/-- Writes all that a run wrote. -/
def emitReport (report : Report) : IO UInt32 := do
  report.outputs.forM emit
  return report.exitCode.toUInt32

/-- The text of a file, if there is such a file and it holds text. -/
def readText? (file : String) : IO (Option String) := do
  try
    let contents ← IO.FS.readFile file
    return some contents
  catch _ =>
    return none

/-- Evaluation keeps its frames on the heap, so no stack is refused. -/
def host : Host where
  grants _ := true

/-- Feeds a dialogue with the lines of the standard input as they come. -/
partial def attend (dialogue : Dialogue) : IO Unit := do
  let stream ← IO.getStdin
  let input ← stream.getLine
  let (written, next) := dialogue.feed (Text.lines input).head?
  written.forM emit
  match next with
  | none => return
  | some after => attend after

end Console
end Calculator

open Calculator.Console in
/-- Runs the program with the given arguments. -/
def main (arguments : List String) : IO UInt32 := do
  match launch host arguments with
  | .finished report => emitReport report
  | .script name resume =>
    let contents ← readText? name
    emitReport (resume contents)
  | .interactive written dialogue =>
    written.forM emit
    attend dialogue
    return 0
