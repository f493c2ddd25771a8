/-!
# Log records

What the library notes about its own work, beside its results.
-/

namespace TraceDebugger

/-- How important a record is, the most important first. -/
inductive Level where
  | error | warn | info | debug | trace
  deriving DecidableEq

namespace Level

/-- The rank of a level; more important records have smaller ranks. -/
def rank : Level → Nat
  | .error => 0
  | .warn => 1
  | .info => 2
  | .debug => 3
  | .trace => 4

/-- The name of a level. -/
def text : Level → String
  | .error => "ERROR"
  | .warn => "WARN"
  | .info => "INFO"
  | .debug => "DEBUG"
  | .trace => "TRACE"

end Level

/-- A note about the library's own work. -/
structure Record where
  /-- How important the record is. -/
  level : Level
  /-- What the record says. -/
  text : String

end TraceDebugger
