import TraceDebugger.Debugger.Command
import TraceDebugger.Program.Resolution

/-!
# Errors of commands

What a command can report instead of doing its work.
-/

namespace TraceDebugger

/-- A report of a command that did not do its work. -/
inductive CommandError where
  /-- The word selects no command. -/
  | lookup (cause : LookupError)
  /-- The command needs more arguments. -/
  | tooFewArgs (min got : Nat)
  /-- The command takes fewer arguments. -/
  | tooManyArgs (max got : Nat)
  /-- An argument is not the whole number that it has to be. -/
  | notAnInteger (what value : String)
  /-- There is no frame of that number. -/
  | frameOutOfRange (requested : Int) (max : Nat)
  /-- No frame is selected, or its function is unknown. -/
  | noFrame
  /-- No local variable of that name is visible. -/
  | noSuchLocal (name : String)
  /-- The function has no parameter of that name. -/
  | noSuchParam (name : String)
  /-- There is no package-level variable of that name. -/
  | noSuchGlobal (name : String)
  /-- The name is not that of a function. -/
  | notAFunction (name : String)
  /-- There is no breakpoint of that number. -/
  | noBreakpoint (id : Nat)
  /-- There is nothing of that name to inform about. -/
  | unknownSubcommand (name : String)
  /-- The name refers to nothing. -/
  | resolve (cause : ResolveError)
  deriving DecidableEq

/-- The report in words. -/
def CommandError.message : CommandError → String
  | .lookup (.unknown word) => s!"Unknown command {word}"
  | .lookup (.ambiguous word candidates) =>
    s!"Ambiguous command {word}: could be " ++ Text.joinWith ", " candidates
  | .tooFewArgs min got => s!"Too few args; need at least {min}, got {got}"
  | .tooManyArgs max got => s!"Too many args; need at most {max}, got {got}"
  | .notAnInteger what value => s!"Expecting integer {what}; got {value}"
  | .frameOutOfRange requested max =>
    s!"Frame number {requested} out of range; must be between 0 and {max}"
  | .noFrame => "No frame selected"
  | .noSuchLocal name => s!"No local variable {name} in the current scope"
  | .noSuchParam name => s!"No parameter {name} in the current function"
  | .noSuchGlobal name => s!"No global variable {name}"
  | .notAFunction name => s!"{name} is not a function"
  | .noBreakpoint id => s!"No breakpoint number {id}"
  | .unknownSubcommand name => s!"Unknown info subcommand {name}"
  | .resolve cause => cause.message

end TraceDebugger
