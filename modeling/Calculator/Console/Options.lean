/-!
# Options

The arguments of the command line.  They are looked at from left to right, and
the first that is not understood ends the program.
-/

namespace Calculator
namespace Console

/-- The line that explains the arguments. -/
def usage : String :=
  "usage: deffn [--no-prelude] [--debug] [script]"

/-- What the arguments ask for. -/
structure Options where
  script : Option String := none
  loadsPrelude : Bool := true
  debugs : Bool := false
  deriving DecidableEq

namespace Options

/-- Takes one more argument into account. -/
def add (options : Options) (argument : String) : Except String Options :=
  if argument = "--no-prelude" then .ok { options with loadsPrelude := false }
  else if argument = "--debug" then .ok { options with debugs := true }
  else if argument = "-h" ∨ argument = "--help" then .error usage
  else if ['-', '-'].isPrefixOf argument.toList then
    .error ("unknown option " ++ argument ++ "\n" ++ usage)
  else if options.script.isSome then .error usage
  else .ok { options with script := some argument }

/-- Takes some more arguments into account. -/
def addAll (options : Options) : List String → Except String Options
  | [] => .ok options
  | argument :: arguments => do
    let more ← options.add argument
    more.addAll arguments

/-- What all arguments ask for together. -/
def ofArguments (arguments : List String) : Except String Options :=
  addAll {} arguments

end Options
end Console
end Calculator
