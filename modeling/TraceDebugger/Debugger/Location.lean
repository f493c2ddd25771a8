import TraceDebugger.Debugger.Session

/-!
# Where execution stands

The line of a call in a backtrace, and the lines that are shown whenever the program stops.
-/

namespace TraceDebugger

/-- The function and source text of a call. -/
def Program.frameText (p : Program) (frame : Frame) : String :=
  match p.function? frame.function with
  | some f => s!"{p.qualifiedName f}() at {frame.span.text}"
  | none => s!"<unknown function> at {frame.span.text}"

namespace Location

/-- The event and the function, and unless this is left out the place of the instruction. -/
def headLine (config : Config) (event : Event) (frame : Frame) (f : Function) : String :=
  let head := s!"{event.icon} {f.label}"
  if config.terse ∧ event ≠ .stepInstruction then head
  else s!"{head} block {frame.block.toNat} insn {frame.pc.toNat}"

/-- A parameter with its value on entry. -/
def paramLine (frame : Frame) (param : Var × Nat) : String :=
  match frame.params[param.2]? with
  | some v => s!"{param.1.text} {v.deref.text}"
  | none => s!"{param.1.text} nil"

/-- On entry the parameters, on return what is returned. -/
def eventLines (event : Event) (frame : Frame) (f : Function) : List String :=
  match event with
  | .callReturn =>
    if f.signature.hasResults then
      [s!"return type: {f.signature.resultsTuple.text}",
        s!"return value: {(frame.result.getD .nil).deref.text}"]
    else ["return void"]
  | .callEnter => f.params.zipIdx.map (paramLine frame)
  | _ => []

/-- The source text of the instruction, or else of the call. -/
def spanLine (instruction : Instruction) (frame : Frame) : String :=
  (if instruction.span.isKnown then instruction.span else frame.span).text

end Location

/-- The lines that are shown when the program stops. -/
def Session.location (s : Session) (instruction : Instruction) : List String :=
  match s.stack.top? with
  | none => [s!"{s.event.icon} <no frame>"]
  | some frame =>
    match s.program.function? frame.function with
    | none => [s!"{s.event.icon} <unknown function>"]
    | some f =>
      Location.headLine s.config s.event frame f
        :: Location.eventLines s.event frame f ++ [Location.spanLine instruction frame]

end TraceDebugger
