import TraceDebugger.Execution.Event
import TraceDebugger.Execution.Value

/-!
# Recorded traces

The record of an execution: the values of the package-level variables, and for every event the
running calls, in which functions are given by their qualified names.
-/

namespace TraceDebugger

/-- A recorded call. -/
structure RecordedFrame where
  /-- The qualified name of the function. -/
  function : String
  /-- The values of its local variables, by slot. -/
  locals : List Value
  /-- The values of its parameters, the receiver first. -/
  params : List Value
  /-- Source names of temporaries, by the name of the temporary. -/
  aliases : Table String String
  /-- The number of the block being executed. -/
  block : UInt64
  /-- The place in the block. -/
  pc : UInt64
  /-- The number of the scope being executed. -/
  scope : Option UInt32
  /-- The source text being executed. -/
  span : Span
  /-- What the call returns, once that is known. -/
  result : Option Value

namespace RecordedFrame

/-- Reads a recorded call. -/
def decode? (j : Json) : Option RecordedFrame := do
  let fields ← j.record?
    ["function", "locals", "params", "aliases", "block", "pc", "scope", "span", "result"]
  some {
    function := ← fields.required "function" Json.string?
    locals := ← fields.withDefault "locals" [] (Json.list? (Value.decode? .direct))
    params := ← fields.withDefault "params" [] (Json.list? (Value.decode? .direct))
    aliases := ← fields.withDefault "aliases" .empty (Json.table? Json.string?)
    block := ← fields.withDefault "block" 0 Json.uint64?
    pc := ← fields.withDefault "pc" 0 Json.uint64?
    scope := ← fields.optional "scope" Json.uint32?
    span := ← fields.withDefault "span" {} Span.decode?
    result := ← fields.optional "result" (Value.decode? .direct) }

/-- Writes a recorded call. -/
def encode (f : RecordedFrame) : Json :=
  .obj [("function", .str f.function), ("locals", .arr (Value.encodeAll f.locals)),
    ("params", .arr (Value.encodeAll f.params)),
    ("aliases", .obj (f.aliases.entries.map fun e => (e.1, .str e.2))),
    ("block", .int f.block.toNat), ("pc", .int f.pc.toNat),
    ("scope", f.scope.elim .null fun n => .int n.toNat), ("span", f.span.encode),
    ("result", f.result.elim .null Value.encode)]

end RecordedFrame

/-- A recorded event. -/
structure TraceStep where
  /-- The event. -/
  event : Event
  /-- The instruction that execution has come to. -/
  instruction : Instruction
  /-- The running calls, the outermost first. -/
  stack : List RecordedFrame

namespace TraceStep

/-- Reads a recorded event. -/
def decode? (j : Json) : Option TraceStep := do
  let fields ← j.record? ["event", "instruction", "stack"]
  some {
    event := ← fields.required "event" Event.decode?
    instruction := ← fields.withDefault "instruction" {} Instruction.decode?
    stack := ← fields.required "stack" (Json.list? RecordedFrame.decode?) }

/-- Writes a recorded event. -/
def encode (s : TraceStep) : Json :=
  .obj [("event", s.event.encode), ("instruction", s.instruction.encode),
    ("stack", .arr (s.stack.map RecordedFrame.encode))]

end TraceStep

/-- A recorded execution. -/
structure Trace where
  /-- The values of package-level variables, by path and name with a dot between them. -/
  globals : Table String Value
  /-- The events in order. -/
  steps : List TraceStep

namespace Trace

/-- Reads a recorded execution. -/
def decode? (j : Json) : Option Trace := do
  let fields ← j.record? ["globals", "steps"]
  some {
    globals := ← fields.withDefault "globals" .empty (Json.table? (Value.decode? .direct))
    steps := ← fields.required "steps" (Json.list? TraceStep.decode?) }

/-- Writes a recorded execution. -/
def encode (t : Trace) : Json :=
  .obj [("globals", .obj (t.globals.entries.map fun e => (e.1, e.2.encode))),
    ("steps", .arr (t.steps.map TraceStep.encode))]

end Trace

end TraceDebugger
