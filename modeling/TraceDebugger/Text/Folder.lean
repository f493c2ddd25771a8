/-!
# Folders

The folder of a file name that is written with slashes. Repeated slashes count as one, and a dot
between slashes stands for nothing.
-/

namespace TraceDebugger.Text

/-- The name without the slashes, and the lone dots after slashes, at its end; the name comes and
goes with its last character first. -/
def dropEmptyParts : List Char → List Char
  | [] => []
  | '/' :: cs => dropEmptyParts cs
  | '.' :: '/' :: cs => dropEmptyParts cs
  | cs => cs

/-- A name reversed and reduced to its folder. -/
def folderReversed? (cs : List Char) : Option (List Char) :=
  match dropEmptyParts cs with
  | [] => none
  | last =>
    let outer := last.dropWhile (· ≠ '/')
    match dropEmptyParts outer with
    | [] => some (if outer.isEmpty then [] else ['/'])
    | folder => some folder

/-- The folder of a file name: empty for a bare name, and none for an empty name or the root. -/
def folder? (name : String) : Option String :=
  (folderReversed? name.toList.reverse).map fun cs => String.ofList cs.reverse

end TraceDebugger.Text
