import TraceDebugger.Debugger.Basic
import TraceDebugger.Execution.Trace

/-!
# Replaying a recorded execution

A replay shows the events of a recorded execution to a debugger, one after the other
(`Replay.advance`), until the debugger quits or the record ends (`Replay.run`). A recorded call
names its function; a name that no function has breaks the replay off before the event is shown.
-/

namespace TraceDebugger

/-- Why a replay breaks off. -/
inductive ReplayError where
  /-- No function has a recorded name. -/
  | unknownFunction (name : String)
  /-- Reading a command or writing to the user failed. -/
  | output (cause : ConsoleFailure)
  deriving DecidableEq

/-- The cause in words. -/
def ReplayError.message : ReplayError → String
  | .unknownFunction name => s!"trace refers to unknown function {name}"
  | .output cause => s!"output failed: {cause.message}"

/-- What comes of an event. -/
inductive Progress where
  /-- The program did not stop. -/
  | passed
  /-- The program stopped and runs on. -/
  | resumed (mode : StepMode)
  /-- The program stopped and the debugger quit. -/
  | quit (code : Int)
  /-- The replay broke off. -/
  | failed (cause : ReplayError)
  deriving DecidableEq

namespace RecordedFrame

/-- The recorded call in a program, if the program has a function of that name. -/
def frame? (p : Program) (r : RecordedFrame) : Option Frame :=
  (p.findFunction? r.function).map fun function =>
    { function
      locals := r.locals
      params := r.params
      aliases := r.aliases
      block := r.block
      pc := r.pc
      scope := r.scope.map fun n => ⟨n.toNat⟩
      span := r.span
      result := r.result }

/-- Recorded calls in a program, or the first name that no function has. -/
def frames (p : Program) : List RecordedFrame → Except String (List Frame)
  | [] => .ok []
  | r :: rest =>
    match r.frame? p with
    | some frame => (frames p rest).map (frame :: ·)
    | none => .error r.function

end RecordedFrame

/-- The running calls of a recorded event. -/
def TraceStep.callStack (p : Program) (step : TraceStep) : Except String CallStack :=
  (RecordedFrame.frames p step.stack).map .ofOutermost

/-- The names bound in the innermost call, the parameters before the local variables. A name whose
value is not recorded is left out. -/
def CallStack.bindings (p : Program) (s : CallStack) : List (String × Value) :=
  match s.top? with
  | none => []
  | some frame =>
    match p.function? frame.function with
    | none => []
    | some f => (f.params.map (·.name)).zip frame.params ++ (f.locals.map (·.name)).zip frame.locals

/-- The line that traces an instruction. -/
def Instruction.echo (i : Instruction) : String :=
  s!"{i.block.toNat}.{i.index.toNat}: {i.text}\n"

/-- A debugger and the engine that it watches. -/
structure Replay where
  /-- The debugger. -/
  debugger : Debugger
  /-- The engine. -/
  engine : Engine

namespace Replay

/-- A replay before the first event. -/
def start (debugger : Debugger) (globals : Table String Value) : Replay :=
  ⟨debugger, { globals }⟩

/-- Takes notes. -/
def note (r : Replay) (records : List Record) : Replay :=
  { r with debugger := { r.debugger with console := r.debugger.console.note records } }

/-- Binds the names of the innermost call. -/
def bind (r : Replay) (stack : CallStack) : Replay :=
  { r with engine := { r.engine with env := stack.bindings r.debugger.program } }

/-- Shows an instruction if instructions are traced; fails only when the output is full. -/
def echo? (r : Replay) (step : TraceStep) : Option Replay :=
  if r.engine.tracing ∧ step.event = .stepInstruction then
    (r.debugger.console.write? step.instruction.echo).map fun console =>
      { r with debugger := { r.debugger with console } }
  else some r

/-- What is left by an instruction that cannot be shown whole. -/
def echoPartly (r : Replay) (step : TraceStep) : Replay :=
  { r with debugger :=
    { r.debugger with console := r.debugger.console.writePartly step.instruction.echo } }

/-- Stops the program on event number `n`. -/
def stop (r : Replay) (n : Nat) (stack : CallStack) (step : TraceStep) : Replay × Progress :=
  let r := r.note [⟨.debug, s!"step {n} suspends on {step.event.text}"⟩]
  let pause := r.debugger.pause stack step.instruction step.event r.engine
  let r : Replay := ⟨pause.debugger, pause.engine⟩
  match pause.result with
  | .ok (.resume mode) => (r.note [⟨.trace, s!"resuming in {mode.noteText}"⟩], .resumed mode)
  | .ok (.quit code) => (r.note [⟨.info, s!"debugger quit with code {code}"⟩], .quit code)
  | .error cause => (r, .failed (.output cause))

/-- Shows event number `n` to the debugger. -/
def advance (r : Replay) (n : Nat) (step : TraceStep) : Replay × Progress :=
  match step.callStack r.debugger.program with
  | .error name => (r, .failed (.unknownFunction name))
  | .ok stack =>
    match (r.bind stack).echo? step with
    | none => ((r.bind stack).echoPartly step, .failed (.output .outputFull))
    | some r =>
      let stops := r.debugger.stopsOn step.event stack
      let r := { r with debugger := r.debugger.countHit step.event stack }
      if stops then r.stop n stack step else (r, .passed)

/-- Shows events to the debugger, the first of which has number `n`. The answer is the exit code if
the debugger quits. -/
def runFrom (r : Replay) (n : Nat) : List TraceStep → Replay × Except ReplayError (Option Int)
  | [] => (r.note [⟨.info, s!"trace exhausted after {n} steps"⟩], .ok none)
  | step :: rest =>
    match r.advance n step with
    | (r, .passed) => r.runFrom (n + 1) rest
    | (r, .resumed _) => r.runFrom (n + 1) rest
    | (r, .quit code) => (r, .ok (some code))
    | (r, .failed cause) => (r, .error cause)

/-- Shows the events of a recorded execution to a debugger. -/
def run (debugger : Debugger) (trace : Trace) : Replay × Except ReplayError (Option Int) :=
  (start debugger trace.globals).runFrom 0 trace.steps

end Replay

end TraceDebugger
