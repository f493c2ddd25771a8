/-!
# Directories

Files by their names, and the walk along a path to one of them (`Directory.read`). The walk takes
the parts of the path between slashes in turn: nothing and a lone dot stay at the same place, two
dots go up, and any other part is the name of a file or directory at the place. A file has nothing
below it. What lies around the directory is unknown: there are places above it, with no files.
-/

namespace TraceDebugger

/-- Why a path leads to no file. -/
inductive PathFault where
  /-- There is nothing of a name. -/
  | missing
  /-- The path goes on after a file. -/
  | notDirectory
  /-- The path ends at a directory. -/
  | isDirectory
  /-- The path or a name in it has too many bytes. -/
  | tooLong
  deriving DecidableEq

/-- The cause in words. -/
def PathFault.message : PathFault → String
  | .missing => "No such file or directory (os error 2)"
  | .notDirectory => "Not a directory (os error 20)"
  | .isDirectory => "Is a directory (os error 21)"
  | .tooLong => "File name too long (os error 36)"

/-- Where a walk stands. -/
inductive Place where
  /-- Around the directory. -/
  | outside
  /-- At the directory, or at the one that these names lead to from there. -/
  | directory (names : List String)
  /-- At a file. -/
  | file (content : String)
  deriving DecidableEq

/-- A directory with the directories in it. -/
structure Directory where
  /-- The content of every file after the names that lead to it. -/
  files : List (List String × String)

namespace Directory

/-- The number of bytes that a name may have. -/
def maxNameSize : Nat := 255

/-- The number of bytes that a path may have. -/
def maxPathSize : Nat := 4095

/-- The parts of a path, cut at every slash. -/
def parts (path : String) : List String := path.splitOn "/"

/-- Whether a part of a path is no name and stays at the place. -/
def staysAt (part : String) : Bool := part = "" || part = "."

/-- The directory with files at their paths, of equal paths the last one. -/
def ofFiles (files : List (String × String)) : Directory :=
  ⟨files.reverse.map fun (path, content) => ((parts path).filter (!staysAt ·), content)⟩

/-- What names lead to. A directory is there for the sake of the files in it. -/
def place? (d : Directory) (names : List String) : Option Place :=
  match d.files.lookup names with
  | some content => some (.file content)
  | none => if d.files.any (names.isPrefixOf ·.1) then some (.directory names) else none

/-- The place that a name leads to; `found` is what has the name. -/
def enter (name : String) (found : Option Place) : Except PathFault Place :=
  if maxNameSize < name.utf8ByteSize then .error .tooLong
  else match found with
    | some place => .ok place
    | none => .error .missing

/-- The place that a part of a path leads to. -/
def step (d : Directory) (place : Place) (part : String) : Except PathFault Place :=
  match place with
  | .file _ => .error .notDirectory
  | .outside =>
    if staysAt part || part = ".." then .ok .outside else enter part none
  | .directory names =>
    if staysAt part then .ok place
    else if part = ".." then .ok (if names.isEmpty then .outside else .directory names.dropLast)
    else enter part (d.place? (names ++ [part]))

/-- The content of the file that a path leads to. A path that begins with a slash does not begin at
the directory. -/
def read (d : Directory) (path : String) : Except PathFault String :=
  if path.isEmpty then .error .missing
  else if maxPathSize < path.utf8ByteSize then .error .tooLong
  else
    let parts := parts path
    match parts.foldlM d.step (if parts.head? = some "" then .outside else .directory []) with
    | .ok (.file content) => .ok content
    | .ok _ => .error .isDirectory
    | .error fault => .error fault

end Directory

end TraceDebugger
