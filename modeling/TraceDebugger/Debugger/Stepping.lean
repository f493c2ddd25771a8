import TraceDebugger.Execution.Event

/-!
# Stepping

How far the program runs before it stops again, and when it stops on the way.
-/

namespace TraceDebugger

/-- How far the program runs. -/
inductive StepMode where
  /-- To the next event of any kind. -/
  | into
  /-- To the next event that is no bare instruction, with at most so many running calls. -/
  | over (depth : Nat)
  /-- To the return of a call, with at most so many running calls. -/
  | out (depth : Nat)
  /-- To a breakpoint. -/
  | run
  deriving DecidableEq

namespace StepMode

/-- Whether the program stops on an event with so many running calls. -/
def stopsOn (mode : StepMode) (event : Event) (depth : Nat) : Bool :=
  match mode with
  | .into => true
  | .over d => event.isStatementBoundary && depth ≤ d
  | .out d => event = .callReturn && depth ≤ d
  | .run => false

/-- The mode in notes. -/
def noteText : StepMode → String
  | .into => "Into"
  | .over depth => s!"Over \x7b depth: {depth} \x7d"
  | .out depth => s!"Out \x7b depth: {depth} \x7d"
  | .run => "Run"

end StepMode

/-- What a debugger is doing. -/
inductive Phase where
  /-- Nothing has happened yet. -/
  | idle
  /-- The program has stopped and commands are read. -/
  | paused
  /-- The program runs. -/
  | stepping (mode : StepMode)
  /-- The user has quit. -/
  | terminated
  deriving DecidableEq

end TraceDebugger
