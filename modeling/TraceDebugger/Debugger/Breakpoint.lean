import TraceDebugger.Data.Log
import TraceDebugger.Program.Function

/-!
# Breakpoints

Breakpoints on the entry of functions. They are numbered from one, and no number is given twice.
-/

namespace TraceDebugger

/-- A breakpoint on the entry of a function. -/
structure Breakpoint where
  /-- Its number. -/
  id : Nat
  /-- The function. -/
  function : FunctionId
  /-- The name by which the breakpoint was set. -/
  location : String
  /-- Whether it stops the program. -/
  enabled : Bool := true
  /-- How often the function was entered. -/
  hits : Nat := 0

/-- The breakpoints that are set. -/
structure Breakpoints where
  /-- The breakpoints in the order of their numbers. -/
  points : List Breakpoint := []
  /-- The number that is given next. -/
  next : Nat := 1

namespace Breakpoints

/-- Whether no breakpoint is set. -/
def isEmpty (b : Breakpoints) : Bool := b.points.isEmpty

/-- The breakpoint of a number. -/
def find? (b : Breakpoints) (id : Nat) : Option Breakpoint := b.points.find? fun p => p.id = id

/-- Sets a breakpoint, with the next number. -/
def add (b : Breakpoints) (function : FunctionId) (location : String) : Breakpoints :=
  { points := b.points ++ [{ id := b.next, function, location }], next := b.next + 1 }

/-- Takes away the breakpoint of a number. -/
def remove (b : Breakpoints) (id : Nat) : Breakpoints :=
  { b with points := b.points.eraseP fun p => p.id = id }

/-- Whether a breakpoint stops on the entry of a function. -/
def stopsAt (b : Breakpoints) (function : FunctionId) : Bool :=
  b.points.any fun p => p.enabled && p.function = function

/-- Counts an entry of a function. -/
def hit (b : Breakpoints) (function : FunctionId) : Breakpoints :=
  { b with points := b.points.map fun p =>
      if p.enabled && p.function = function then { p with hits := p.hits + 1 } else p }

/-- What is noted when a breakpoint is set. -/
def addRecord (b : Breakpoints) (location : String) : Record :=
  ⟨.info, s!"breakpoint {b.next} set at {location}"⟩

/-- What is noted when the breakpoint of a number is taken away. -/
def removeRecords (b : Breakpoints) (id : Nat) : List Record :=
  match b.find? id with
  | some _ => [⟨.info, s!"breakpoint {id} removed"⟩]
  | none => []

end Breakpoints

end TraceDebugger
