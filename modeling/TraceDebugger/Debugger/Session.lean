import TraceDebugger.Debugger.Breakpoint
import TraceDebugger.Debugger.CommandError
import TraceDebugger.Debugger.Config
import TraceDebugger.Debugger.Console
import TraceDebugger.Debugger.Stepping
import TraceDebugger.Execution.Engine
import TraceDebugger.Execution.Stack

/-!
# Sessions

A session is what commands work on while the program is stopped: the program and its running calls,
one of which is selected, the engine, the breakpoints and the console. A command works by a list of
effects, which are carried out in order (`Session.perform`); the first write that fails ends it, and
leaves what it has written of its text.
-/

namespace TraceDebugger

/-- What follows a command. -/
inductive Flow where
  /-- The next command is read. -/
  | prompt
  /-- The program runs on. -/
  | resume (mode : StepMode)
  /-- The debugger ends with an exit code. -/
  | quit (code : Int)
  deriving DecidableEq

/-- Something that a command does. -/
inductive Effect where
  /-- Shows a text. -/
  | write (text : String)
  /-- Selects the call at a depth. -/
  | select (depth : Nat)
  /-- Sets a breakpoint. -/
  | addBreakpoint (function : FunctionId) (location : String)
  /-- Takes a breakpoint away. -/
  | removeBreakpoint (id : Nat)
  /-- Tells the engine something. -/
  | direct (directive : Directive)

/-- What a command does, and what follows it. -/
structure Reply where
  /-- The effects in order. -/
  effects : List Effect := []
  /-- What follows, or what the command reports. -/
  result : Except CommandError Flow

namespace Reply

/-- Shows lines and asks for the next command. -/
def lines (ls : List String) : Reply :=
  { effects := ls.map fun l => .write (l ++ "\n"), result := .ok .prompt }

/-- Reports an error. -/
def fail (e : CommandError) : Reply := { result := .error e }

end Reply

/-- What commands work on. -/
structure Session where
  /-- The program. -/
  program : Program
  /-- The running calls. -/
  stack : CallStack
  /-- The settings. -/
  config : Config
  /-- The event on which the program has stopped. -/
  event : Event
  /-- The engine. -/
  engine : Engine
  /-- The breakpoints. -/
  breakpoints : Breakpoints
  /-- The console. -/
  console : Console
  /-- The depth of the selected call. -/
  cursor : Nat
  /-- The current scope: that of the selected call, or else that of its function. -/
  scope : Option ScopeId

namespace Session

/-- The selected call. -/
def frame? (s : Session) : Option Frame := s.stack.frame? s.cursor

/-- The function of the selected call. -/
def function? (s : Session) : Option Function := s.frame?.bind fun f => s.program.function? f.function

/-- The package of the function of the selected call. -/
def package? (s : Session) : Option Package := s.function?.bind fun f => s.program.package? f.package

/-- The selected call with its function. -/
def frameAndFunction? (s : Session) : Option (Frame × Function) := do
  let frame ← s.frame?
  some (frame, ← s.program.function? frame.function)

/-- The scope that a call makes current. -/
def scopeOf (program : Program) (frame : Frame) : Option ScopeId :=
  frame.scope.or ((program.function? frame.function).bind (·.scope))

/-- Selects the call at a depth and makes its scope current. -/
def select (s : Session) (depth : Nat) : Session :=
  { s with cursor := depth, scope := (s.stack.frame? depth).bind (scopeOf s.program) }

/-- A session with the innermost call selected. -/
def start (program : Program) (stack : CallStack) (config : Config) (event : Event)
    (engine : Engine) (breakpoints : Breakpoints) (console : Console) : Session :=
  { program, stack, config, event, engine, breakpoints, console
    cursor := 0, scope := (stack.frame? 0).bind (scopeOf program) }

/-- Shows a text; fails when the output is full. -/
def write? (s : Session) (text : String) : Option Session :=
  (s.console.write? text).map fun console => { s with console }

/-- What is left by a text that cannot be shown whole. -/
def writePartly (s : Session) (text : String) : Session :=
  { s with console := s.console.writePartly text }

/-- Takes notes. -/
def note (s : Session) (records : List Record) : Session :=
  { s with console := s.console.note records }

/-- Carries out one effect; fails only when the output is full. -/
def enact? (s : Session) : Effect → Option Session
  | .write text => s.write? text
  | .select depth => some (s.select depth)
  | .addBreakpoint function location =>
    some ({ s with breakpoints := s.breakpoints.add function location }.note
      [s.breakpoints.addRecord location])
  | .removeBreakpoint id =>
    some ({ s with breakpoints := s.breakpoints.remove id }.note (s.breakpoints.removeRecords id))
  | .direct d => some ({ s with engine := s.engine.direct d }.note d.records)

/-- What is left by an effect that fails, which only the showing of a text does. -/
def enactPartly (s : Session) : Effect → Session
  | .write text => s.writePartly text
  | _ => s

/-- Carries out effects up to the first write that fails, and tells whether all went through. -/
def perform (s : Session) : List Effect → Session × Bool
  | [] => (s, true)
  | e :: rest =>
    match s.enact? e with
    | some s => s.perform rest
    | none => (s.enactPartly e, false)

end Session

end TraceDebugger
