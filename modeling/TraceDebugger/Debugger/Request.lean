import TraceDebugger.Debugger.CommandError
import TraceDebugger.Text.Words

/-!
# Requests

A request is a command with its arguments in their places. The words of a line make a request only
if the first selects a command and the number of the others is one that the command admits
(`Request.ofWords`).
-/

namespace TraceDebugger

/-- A command with its arguments. -/
inductive Request where
  | step | next | finish | run
  | trace (on : Bool)
  | locals (name : Option String)
  | globals (names : List String)
  | parameters (name : Option String)
  | whatis (name : String)
  | env
  | backtrace (count : Option String)
  | frame (number : String)
  | up (count : Option String)
  | down (count : Option String)
  | setBreak (name : String)
  | deleteBreak (number : String)
  | info (topic : String)
  | help (word : Option String)
  | quit (code : Option String)
  deriving DecidableEq

/-- The request of a verb and its arguments; none when an argument is missing that the verb cannot
do without. -/
def Verb.request? : Verb → List String → Option Request
  | .step, _ => some .step
  | .next, _ => some .next
  | .finish, _ => some .finish
  | .run, _ => some .run
  | .traceOn, _ => some (.trace true)
  | .traceOff, _ => some (.trace false)
  | .locals, args => some (.locals args[0]?)
  | .globals, args => some (.globals args)
  | .parameters, args => some (.parameters args[0]?)
  | .whatis, args => args[0]?.map .whatis
  | .env, _ => some .env
  | .backtrace, args => some (.backtrace args[0]?)
  | .frame, args => args[0]?.map .frame
  | .up, args => some (.up args[0]?)
  | .down, args => some (.down args[0]?)
  | .setBreak, args => args[0]?.map .setBreak
  | .deleteBreak, args => args[0]?.map .deleteBreak
  | .info, args => args[0]?.map .info
  | .help, args => some (.help args[0]?)
  | .quit, args => some (.quit args[0]?)

namespace Command

/-- Whether a command admits a number of arguments. -/
def admits (c : Command) (count : Nat) : Bool := c.minArgs ≤ count && c.maxArgs.all (count ≤ ·)

/-- Checks the number of arguments. -/
def checkCount (c : Command) (count : Nat) : Except CommandError Unit :=
  if count < c.minArgs then .error (.tooFewArgs c.minArgs count)
  else match c.maxArgs with
    | some max => if max < count then .error (.tooManyArgs max count) else .ok ()
    | none => .ok ()

end Command

namespace Request

/-- The request of a first word and the words after it. -/
def ofWords (word : String) (args : List String) : Except CommandError Request :=
  match Command.lookup word with
  | .error cause => .error (.lookup cause)
  | .ok command =>
    match command.checkCount args.length with
    | .error e => .error e
    | .ok () =>
      match command.verb.request? args with
      | some request => .ok request
      | none => .error (.tooFewArgs 1 args.length)

end Request

end TraceDebugger
