import TraceDebugger.CommandLine

/-!
# The program

Does the job of the command line. The input is read to its end before a replay begins.
-/

namespace TraceDebugger

/-- The document of a file that cannot be read. -/
def unreadDocument : IO.Error → Document
  | .noFileOrDirectory .. => .missing
  | .permissionDenied _ code details
  | .inappropriateType _ code details
  | .invalidArgument _ code details => .unreadable s!"{details} (os error {code})"
  | e => .unreadable (toString e)

/-- What the file of a path holds. -/
def readDocument (path : String) : IO Document := do
  try
    return .ofBytes (← IO.FS.readBinFile path)
  catch e =>
    return unreadDocument e

/-- Does a job and tells its exit code. -/
def runJob (job : Job) : IO UInt32 := do
  let documents ← job.paths.mapM fun path => return (path, ← readDocument path)
  let input ← match job with
    | .inventory .. => pure ByteArray.empty
    | .replay .. => (← IO.getStdin).readBinToEnd
  let read (path : String) := (documents.lookup path).getD .missing
  let result := job.perform read (Text.linesOfBytes input.toList)
  IO.print result.output
  (← IO.getStdout).flush
  IO.eprint result.complaint
  return UInt32.ofNat result.exitCode

end TraceDebugger

/-- Does the job of the command line. -/
def main (args : List String) : IO UInt32 :=
  match TraceDebugger.Job.parse? args with
  | some job => TraceDebugger.runJob job
  | none => do
    IO.eprintln "usage: inventory UNIT... [--sanity]"
    IO.eprintln "       replay UNIT... --trace TRACE [--terse] [--sanity] [--run]"
    return UInt32.ofNat TraceDebugger.Job.usageCode
