import TraceDebugger.Data.Log
import TraceDebugger.Directory
import TraceDebugger.Execution.Trace
import TraceDebugger.Json.Reader
import TraceDebugger.Source.Unit

/-!
# Documents

The files from which compilation units and recorded executions are read. Several units are read in
order, and the first that cannot be read stops the reading (`loadUnits`).
-/

namespace TraceDebugger

/-- The content of a file. -/
inductive Document where
  /-- The file is a text. -/
  | text (content : String)
  /-- The file cannot be read, for a reason. -/
  | unreadable (reason : String)
  deriving DecidableEq

/-- Why a document is not loaded. -/
inductive LoadError where
  /-- The file cannot be read. -/
  | unreadable (path reason : String)
  /-- The text does not have the form that is asked for. -/
  | undecodable (path : String)
  deriving DecidableEq

/-- The cause in words. -/
def LoadError.message : LoadError → String
  | .unreadable path reason => s!"couldn't read {path}: {reason}"
  | .undecodable path => s!"couldn't decode {path}"

namespace Document

/-- The document at the end of a path that leads to no file. -/
def ofFault (fault : PathFault) : Document := .unreadable fault.message

/-- The document of a file that is not there. -/
def missing : Document := ofFault .missing

/-- The document that a path leads to from a directory. -/
def ofPath (directory : Directory) (path : String) : Document :=
  match directory.read path with
  | .ok content => .text content
  | .error fault => ofFault fault

/-- The document of a file's bytes. -/
def ofBytes (bytes : ByteArray) : Document :=
  match String.fromUTF8? bytes with
  | some content => .text content
  | none => .unreadable "stream did not contain valid UTF-8"

/-- Reads the document of a file as `decode?` says. -/
def load {α : Type} (decode? : Json → Option α) (path : String) : Document → Except LoadError α
  | .unreadable reason => .error (.unreadable path reason)
  | .text content =>
    match (Json.read? content).bind decode? with
    | some a => .ok a
    | none => .error (.undecodable path)

end Document

/-- What came of reading documents. -/
structure Loading (α : Type) where
  /-- What was read, or why it was not. -/
  result : Except LoadError α
  /-- The notes taken. -/
  log : List Record

/-- Reads compilation units, after those of `units`. -/
def loadUnitsFrom (units : List SourceUnit) (log : List Record) :
    List (String × Document) → Loading (List SourceUnit)
  | [] => ⟨.ok units, log⟩
  | (path, document) :: rest =>
    match document.load SourceUnit.decode? path with
    | .error cause => ⟨.error cause, log⟩
    | .ok u =>
      loadUnitsFrom (units ++ [u]) (log ++ [⟨.debug, s!"loaded unit {u.path} from {path}"⟩]) rest

/-- Reads compilation units from the documents of files, up to the first that cannot be read. -/
def loadUnits (documents : List (String × Document)) : Loading (List SourceUnit) :=
  loadUnitsFrom [] [] documents

/-- Reads a recorded execution from the document of a file. -/
def loadTrace (path : String) (document : Document) : Loading Trace :=
  match document.load Trace.decode? path with
  | .error cause => ⟨.error cause, []⟩
  | .ok trace =>
    ⟨.ok trace, [⟨.debug, s!"loaded {trace.steps.length} trace steps from {path}"⟩]⟩

end TraceDebugger
