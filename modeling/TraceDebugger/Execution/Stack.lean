import TraceDebugger.Execution.Value
import TraceDebugger.Program.Function

/-!
# The call stack

The calls that are running when execution stops. Depth counts from the innermost call, which has
depth zero.
-/

namespace TraceDebugger

/-- A running call. -/
structure Frame where
  /-- The function called. -/
  function : FunctionId
  /-- The values of its local variables, by slot. -/
  locals : List Value := []
  /-- The values of its parameters, the receiver first. -/
  params : List Value := []
  /-- Source names of temporaries, by the name of the temporary. -/
  aliases : Table String String := .empty
  /-- The number of the block being executed. -/
  block : UInt64 := 0
  /-- The place in the block. -/
  pc : UInt64 := 0
  /-- The scope being executed. -/
  scope : Option ScopeId := none
  /-- The source text being executed. -/
  span : Span := {}
  /-- What the call returns, once that is known. -/
  result : Option Value := none

/-- The running calls. -/
structure CallStack where
  /-- The calls, the innermost first. -/
  frames : List Frame := []

namespace CallStack

/-- The stack of calls that are listed outermost first. -/
def ofOutermost (frames : List Frame) : CallStack := ⟨frames.reverse⟩

/-- The number of running calls. -/
def size (s : CallStack) : Nat := s.frames.length

/-- The innermost call. -/
def top? (s : CallStack) : Option Frame := s.frames.head?

/-- The call at a depth. -/
def frame? (s : CallStack) (depth : Nat) : Option Frame := s.frames[depth]?

/-- The call from which the one at a depth was made. -/
def caller? (s : CallStack) (depth : Nat) : Option Frame := s.frame? (depth + 1)

end CallStack

end TraceDebugger
