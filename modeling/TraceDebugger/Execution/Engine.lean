import TraceDebugger.Data.Log
import TraceDebugger.Execution.Value

/-!
# The execution engine

What runs the program. The debugger tells it how far to run before it asks again, turns the tracing
of instructions on and off, and asks it for the values of package-level variables. The engine keeps
a list of all that it was told.
-/

namespace TraceDebugger

/-- Something the engine is told. -/
inductive Directive where
  /-- Stop at every instruction. -/
  | stepInto
  /-- Stop at statements with at most so many running calls. -/
  | stepOver (depth : Nat)
  /-- Stop when the call with so many running calls returns. -/
  | stepOut (depth : Nat)
  /-- Stop at breakpoints only. -/
  | run
  /-- Turn the tracing of instructions on or off. -/
  | trace (on : Bool)
  deriving DecidableEq

namespace Directive

/-- Whether the engine is told how far to run. -/
def isStep : Directive → Bool
  | .trace _ => false
  | _ => true

/-- What is noted about a directive. -/
def records : Directive → List Record
  | .stepInto => [⟨.trace, "engine: step into"⟩]
  | .stepOver depth => [⟨.trace, s!"engine: step over at depth {depth}"⟩]
  | .stepOut depth => [⟨.trace, s!"engine: step out to depth {depth}"⟩]
  | .run => [⟨.trace, "engine: run"⟩]
  | .trace _ => []

end Directive

/-- The engine as the debugger sees it. -/
structure Engine where
  /-- The values of package-level variables, by path and name with a dot between them. -/
  globals : Table String Value := .empty
  /-- The names bound in the innermost call, with their values. -/
  env : List (String × Value) := []
  /-- Whether instructions are traced. -/
  tracing : Bool := false
  /-- What the engine was told, in order. -/
  directives : List Directive := []

namespace Engine

/-- The value of the variable `name` of the package of path `package`. -/
def global? (e : Engine) (package name : String) : Option Value :=
  e.globals.find? s!"{package}.{name}"

/-- Tells the engine something. -/
def direct (e : Engine) (d : Directive) : Engine :=
  { e with
    directives := e.directives ++ [d]
    tracing := match d with
      | .trace on => on
      | _ => e.tracing }

end Engine

end TraceDebugger
