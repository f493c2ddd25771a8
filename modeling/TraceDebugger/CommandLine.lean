import TraceDebugger.Document
import TraceDebugger.Program.Creation
import TraceDebugger.Replay

/-!
# The command line

The words of a command line ask for a job: to list the members of packages, or to replay a recorded
execution (`Job.parse?`). A job is carried out on the documents that it names and on the lines of
its input (`Job.perform`).
-/

namespace TraceDebugger

/-- A choice on the command line. -/
inductive Flag where
  /-- Leave out the place of the instruction where execution stops. -/
  | terse
  /-- Check every package that is made. -/
  | sanity
  /-- Do not stop at the first event. -/
  | run
  deriving DecidableEq

/-- The choice that a word makes. -/
def Flag.ofWord? : String → Option Flag
  | "--terse" => some .terse
  | "--sanity" => some .sanity
  | "--run" => some .run
  | _ => none

/-- What a word of the command line means, with the word after it where it has a value. -/
inductive Argument where
  /-- The path of a unit. -/
  | unit (path : String)
  /-- The path of a recorded execution. -/
  | trace (path : String)
  /-- A choice. -/
  | flag (flag : Flag)
  deriving DecidableEq

namespace Argument

/-- Whether a word can stand for itself: it has no dash at its beginning, or is nothing else. -/
def isPlain (word : String) : Bool := word = "-" || !Text.startsWith "-" word

/-- The path of a recorded execution that is attached to its option. -/
def attachedTrace? (word : String) : Option String :=
  match word.toList with
  | '-' :: 't' :: '=' :: path => some (String.ofList path)
  | '-' :: 't' :: c :: path => some (String.ofList (c :: path))
  | '-' :: '-' :: 't' :: 'r' :: 'a' :: 'c' :: 'e' :: '=' :: path => some (String.ofList path)
  | _ => none

/-- The meaning of the words after the name of the job. After two dashes every word is the path of a
unit. -/
def ofWords? : List String → Option (List Argument)
  | [] => some []
  | "--" :: rest => some (rest.map .unit)
  | "-t" :: path :: rest => if isPlain path then (ofWords? rest).map (.trace path :: ·) else none
  | "--trace" :: path :: rest =>
    if isPlain path then (ofWords? rest).map (.trace path :: ·) else none
  | word :: rest =>
    match Flag.ofWord? word, attachedTrace? word with
    | some f, _ => (ofWords? rest).map (.flag f :: ·)
    | none, some path => (ofWords? rest).map (.trace path :: ·)
    | none, none => if isPlain word then (ofWords? rest).map (.unit word :: ·) else none

/-- The path of a unit. -/
def unit? : Argument → Option String
  | .unit path => some path
  | _ => none

/-- The path of a recorded execution. -/
def trace? : Argument → Option String
  | .trace path => some path
  | _ => none

/-- A choice. -/
def flag? : Argument → Option Flag
  | .flag f => some f
  | _ => none

end Argument

/-- What a command line asks for. -/
inductive Job where
  /-- To list the members of the packages of units. -/
  | inventory (units : List String) (sanity : Bool)
  /-- To replay a recorded execution of the packages of units. -/
  | replay (units : List String) (trace : String) (terse sanity run : Bool)
  deriving DecidableEq

namespace Job

/-- The job of a name and its arguments. At least one unit is named, no path is empty, and no choice
is made twice. -/
def ofArguments? (name : String) (args : List Argument) : Option Job :=
  let units := args.filterMap Argument.unit?
  let flags := args.filterMap Argument.flag?
  if units.isEmpty ∨ "" ∈ units ∨ ¬ flags.Nodup then none else
  match name, args.filterMap Argument.trace? with
  | "inventory", [] =>
    if flags.all (· = .sanity) then some (.inventory units (.sanity ∈ flags)) else none
  | "replay", [trace] =>
    if trace = "" then none
    else some (.replay units trace (.terse ∈ flags) (.sanity ∈ flags) (.run ∈ flags))
  | _, _ => none

/-- The job of the words of a command line, if they are well formed. -/
def parse? : List String → Option Job
  | [] => none
  | name :: words => (Argument.ofWords? words).bind (ofArguments? name)

/-- The paths of the units of a job. -/
def units : Job → List String
  | .inventory units _ => units
  | .replay units .. => units

/-- Whether the packages are checked. -/
def sanity : Job → Bool
  | .inventory _ sanity => sanity
  | .replay _ _ _ sanity _ => sanity

/-- The paths of all files that a job reads. -/
def paths : Job → List String
  | .inventory units _ => units
  | .replay units trace .. => units ++ [trace]

end Job

/-- Why a job is not done. -/
inductive JobError where
  /-- A document was not loaded. -/
  | load (cause : LoadError)
  /-- A package was not made. -/
  | create (cause : BatchFailure)
  /-- A replay broke off. -/
  | replay (cause : ReplayError)
  deriving DecidableEq

namespace JobError

/-- The cause in words. -/
def message : JobError → String
  | .load cause => cause.message
  | .create cause => cause.message
  | .replay cause => cause.message

/-- The exit code. A unit that is refused is a mistake of another program, and has a code of its
own; one whose scopes have no end keeps the job from ending, and so from having a code. -/
def exitCode : JobError → Nat
  | .create (.violation _) => 101
  | _ => 1

end JobError

/-- What came of a job. -/
structure JobResult where
  /-- The text shown. -/
  output : String
  /-- The exit code, or why the job was not done. -/
  result : Except JobError Int

namespace JobResult

/-- The exit code as other programs see it, of which only the lowest eight bits are kept. -/
def exitCode (r : JobResult) : Nat :=
  match r.result with
  | .ok code => (code % 256).toNat
  | .error cause => cause.exitCode

/-- What is said of a job that is not done. -/
def complaint (r : JobResult) : String :=
  match r.result with
  | .ok _ => ""
  | .error cause => s!"error: {cause.message}\n"

end JobResult

namespace Job

/-- The exit code for a command line that is not well formed. -/
def usageCode : Nat := 2

/-- The program of the units of a job. -/
def program (job : Job) (read : String → Document) : Except JobError Program :=
  match (loadUnits (job.units.map fun path => (path, read path))).result with
  | .error cause => .error (.load cause)
  | .ok units =>
    let start : Program := { diagnostics := { logPackages := true, checkFunctions := job.sanity } }
    let creation := start.createAll units
    match creation.result with
    | .ok _ => .ok creation.program
    | .error cause => .error (.create cause)

/-- Replays a recorded execution. -/
def replayTrace (program : Program) (config : Config) (path : String) (document : Document)
    (input : List Text.Line) : JobResult :=
  match (loadTrace path document).result with
  | .error cause => ⟨"", .error (.load cause)⟩
  | .ok trace =>
    let (r, result) := Replay.run (.start program input config {}) trace
    ⟨r.debugger.console.shown,
      match result with
      | .ok code => .ok (code.getD 0)
      | .error cause => .error (.replay cause)⟩

/-- Does a job, with `read` telling what the file of a path holds (`Document.ofPath`, for the files
of a directory). -/
def perform (job : Job) (read : String → Document) (input : List Text.Line) : JobResult :=
  match job.program read with
  | .error cause => ⟨"", .error cause⟩
  | .ok program =>
    match job with
    | .inventory .. => ⟨String.join (program.packages.map Package.inventory), .ok 0⟩
    | .replay _ trace terse _ run =>
      let config : Config := { terse, stopOnEntry := !run }
      replayTrace program config trace (read trace) input

end Job

end TraceDebugger
