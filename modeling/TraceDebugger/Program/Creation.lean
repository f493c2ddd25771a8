import TraceDebugger.Program.Consistency
import TraceDebugger.Program.Draft
import TraceDebugger.Text.Blank
import TraceDebugger.Text.Quoted

/-!
# Making packages of units

`Program.create` makes a package of a unit and adds it to a program. A path has one package only:
for a unit with a path that is there already, that package is the answer. A refused unit leaves the
program as it was; only a package that is found inconsistent is there nevertheless. The scopes are
numbered before anything else is made, so of a unit whose scopes have no end nothing comes at all.

`Program.createAll` makes packages of several units, and leaves out those with type errors.
-/

namespace TraceDebugger

/-- What came of making a package. -/
structure Creation where
  /-- The program afterwards. -/
  program : Program
  /-- The package, or why there is none. -/
  result : Except Violation PackageId
  /-- The notes taken. -/
  log : List Record

/-- What came of making several packages. -/
structure BatchCreation where
  /-- The program afterwards. -/
  program : Program
  /-- The packages, or why there are not all. -/
  result : Except BatchFailure (List PackageId)
  /-- The notes taken. -/
  log : List Record

namespace Package

/-- A summary of a function. -/
def functionSummary (p : Package) (f : Function) : String :=
  let reason := f.syntheticReason?.elim "None" fun reason => s!"Some({Text.quoted reason})"
  s!"# Name: {p.name}.{f.name} func{f.signature.text} locals={f.locals.length} "
    ++ s!"synthetic={reason} at {f.span.text}"

/-- The notes about a finished package. -/
def records (p : Package) (diagnostics : Diagnostics) : List Record :=
  (if diagnostics.logPackages then [⟨.info, Text.trimEnd p.inventory⟩] else [])
    ++ (if diagnostics.logFunctions then
      p.functions.map fun f => ⟨.debug, p.functionSummary f⟩ else [])

end Package

namespace Program

/-- The notes about problems. -/
def problemRecords (problems : List Problem) : List Record :=
  problems.map fun problem => ⟨.warn, problem.message⟩

/-- Adds a finished package with its methods. -/
def addPackage (p : Program) (package : Package) (methods : List (ObjectId × FunctionId)) :
    Program :=
  (p.register package).registerMethods package.id methods

/-- The problems that are looked for when a package is added. -/
def checkedProblems (p : Program) (package : Package) : List Problem :=
  if p.diagnostics.checkFunctions then p.problems package else []

/-- Makes a package of a unit. -/
def create (p : Program) (u : SourceUnit) : Creation :=
  match u.error with
  | some error => ⟨p, .error (.typeErrors u.path error), []⟩
  | none =>
    match p.byIdentity.find? u.path with
    | some id => ⟨p, .ok id, [⟨.debug, s!"package {u.path} already created"⟩]⟩
    | none =>
      if !u.scopesEnd then ⟨p, .error (.endless u.path), []⟩ else
      let start : Draft := { package := .start p.nextPackage u }
      match start.build u.items with
      | (draft, some cause) => ⟨p, .error cause, draft.log⟩
      | (draft, none) =>
        let package := draft.finish
        let p := p.addPackage package draft.methods
        let problems := p.checkedProblems package
        let log := draft.log ++ package.records p.diagnostics ++ problemRecords problems
        if problems.isEmpty then ⟨p, .ok package.id, log⟩
        else ⟨p, .error (.inconsistent u.path
          (Text.joinWith "\n" (problems.map Problem.message))), log⟩

/-- Makes packages of units, after those of `ids` and with the units of `failed` left out. -/
def createFrom (p : Program) (ids : List PackageId) (failed : List String) (log : List Record) :
    List SourceUnit → BatchCreation
  | [] => ⟨p, if failed.isEmpty then .ok ids else .error (.typeErrors failed), log⟩
  | u :: rest =>
    if u.error.isSome then createFrom p ids (failed ++ [u.path]) log rest else
    let creation := p.create u
    match creation.result with
    | .ok id => createFrom creation.program (ids ++ [id]) failed (log ++ creation.log) rest
    | .error cause => ⟨creation.program, .error (.violation cause), log ++ creation.log⟩

/-- Makes packages of units, up to the first that is refused. -/
def createAll (p : Program) (units : List SourceUnit) : BatchCreation :=
  p.createFrom [] [] [] units

end Program

end TraceDebugger
