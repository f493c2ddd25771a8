import TraceDebugger.Debugger.Turn
import TraceDebugger.Text.Lines

/-!
# Debuggers

A debugger watches a running program. On every event it decides whether the program stops
(`Debugger.stopsOn`); where it stops, it shows the place and carries out lines of input until one
of them lets the program run on or quits (`Debugger.pause`).
-/

namespace TraceDebugger

/-- A debugger. -/
structure Debugger where
  /-- The program. -/
  program : Program
  /-- The lines of input that have not been read. -/
  input : List Text.Line
  /-- The settings. -/
  config : Config
  /-- The breakpoints. -/
  breakpoints : Breakpoints := {}
  /-- How far the program runs. -/
  mode : StepMode
  /-- What the debugger is doing. -/
  phase : Phase := .idle
  /-- The number of prompts shown. -/
  prompts : Nat := 0
  /-- The last event on which the program stopped. -/
  lastEvent : Option Event := none
  /-- The console. -/
  console : Console

/-- How the program goes on after a stop. -/
inductive Outcome where
  /-- It runs on. -/
  | resume (mode : StepMode)
  /-- The debugger ends with an exit code. -/
  | quit (code : Int)
  deriving DecidableEq

/-- The reading of commands during one stop. -/
structure Dialogue where
  /-- The session afterwards. -/
  session : Session
  /-- The lines of input that have not been read. -/
  input : List Text.Line
  /-- The number of prompts shown. -/
  prompts : Nat
  /-- How the program goes on, or why reading failed. -/
  result : Except ConsoleFailure Outcome

namespace Session

/-- The prompt of a number. -/
def promptText (s : Session) (number : Nat) : String := s!"{s.config.prompt}[{number}]: "

/-- Shows lines one after the other, and tells whether all went through. -/
def showLines (s : Session) (ls : List String) : Session × Bool :=
  s.perform (ls.map fun l => .write (l ++ "\n"))

/-- Ends the reading of commands at the end of input. -/
def endOfInput (s : Session) (prompts : Nat) : Dialogue :=
  let s := s.note [⟨.debug, "end of command input"⟩]
  match s.write? "\n" with
  | some s => ⟨s, [], prompts, .ok (.quit 0)⟩
  | none => ⟨s.writePartly "\n", [], prompts, .error .outputFull⟩

/-- Carries out lines of input, after a prompt each, until one lets the program run on or quits. The
end of input quits. -/
def dialogue (s : Session) (prompts : Nat) : List Text.Line → Dialogue
  | [] =>
    match s.write? (s.promptText (prompts + 1)) with
    | some s => s.endOfInput (prompts + 1)
    | none => ⟨s.writePartly (s.promptText (prompts + 1)), [], prompts + 1, .error .outputFull⟩
  | line :: rest =>
    match s.write? (s.promptText (prompts + 1)) with
    | none =>
      ⟨s.writePartly (s.promptText (prompts + 1)), line :: rest, prompts + 1, .error .outputFull⟩
    | some s =>
      match line with
      | .malformed => ⟨s, rest, prompts + 1, .error .malformedInput⟩
      | .text content =>
        let turn := s.execute content
        match turn.result with
        | .error e => ⟨turn.session, rest, prompts + 1, .error e⟩
        | .ok .prompt => dialogue turn.session (prompts + 1) rest
        | .ok (.resume mode) => ⟨turn.session, rest, prompts + 1, .ok (.resume mode)⟩
        | .ok (.quit code) => ⟨turn.session, rest, prompts + 1, .ok (.quit code)⟩

end Session

/-- What comes of a stop. -/
structure Pause where
  /-- The debugger afterwards. -/
  debugger : Debugger
  /-- The engine afterwards. -/
  engine : Engine
  /-- How the program goes on, or why the stop failed. -/
  result : Except ConsoleFailure Outcome

namespace Debugger

/-- A debugger before the first event. -/
def start (program : Program) (input : List Text.Line) (config : Config) (console : Console) :
    Debugger :=
  { program, input, config, console, mode := if config.stopOnEntry then .into else .run }

/-- Counts the entry of a function on its breakpoints. -/
def countHit (d : Debugger) (event : Event) (stack : CallStack) : Debugger :=
  match event, stack.top? with
  | .callEnter, some top => { d with breakpoints := d.breakpoints.hit top.function }
  | _, _ => d

/-- Whether an event is the entry of a function with a breakpoint. -/
def atBreakpoint (d : Debugger) (event : Event) (stack : CallStack) : Bool :=
  match event, stack.top? with
  | .callEnter, some top => d.breakpoints.stopsAt top.function
  | _, _ => false

/-- Whether the program stops on an event: always on a breakpoint of its own and on a panic, on the
entry of a function with a breakpoint, and as the step mode says. -/
def stopsOn (d : Debugger) (event : Event) (stack : CallStack) : Bool :=
  event = .breakpoint || event = .panic || d.atBreakpoint event stack
    || d.mode.stopsOn event stack.size

/-- Stops the program and reads commands until it runs on. -/
def pause (d : Debugger) (stack : CallStack) (instruction : Instruction) (event : Event)
    (engine : Engine) : Pause :=
  let console := d.console.note
    [⟨.trace, s!"suspended on {event.text} at depth {stack.size}"⟩]
  let s := Session.start d.program stack d.config event engine d.breakpoints console
  let dialogue := match s.showLines (s.location instruction) with
    | (s, true) => s.dialogue d.prompts d.input
    | (s, false) => ⟨s, d.input, d.prompts, .error .outputFull⟩
  let d := { d with
    input := dialogue.input
    prompts := dialogue.prompts
    breakpoints := dialogue.session.breakpoints
    console := dialogue.session.console
    lastEvent := some event
    mode := match dialogue.result with
      | .ok (.resume mode) => mode
      | _ => d.mode
    phase := match dialogue.result with
      | .ok (.resume mode) => .stepping mode
      | .ok (.quit _) => .terminated
      | .error _ => .paused }
  ⟨d, dialogue.session.engine, dialogue.result⟩

end Debugger

end TraceDebugger
