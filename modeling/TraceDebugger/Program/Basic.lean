import TraceDebugger.Program.Package

/-!
# Programs

A program is a list of packages, with the tables by which packages and methods are found. Packages
are only ever added, and a package added later takes the short name of an earlier one.
-/

namespace TraceDebugger

/-- An object by its package and its number there. -/
structure ObjectKey where
  /-- The package. -/
  package : PackageId
  /-- The number. -/
  object : ObjectId
  deriving DecidableEq

namespace ObjectKey

/-- The number of the package. -/
def packageIndex (k : ObjectKey) : Nat := k.package.index

instance : Ord ObjectKey := ⟨compareLex (compareOn packageIndex) (compareOn object)⟩

instance : Std.TransOrd ObjectKey :=
  inferInstanceAs (Std.TransCmp (compareLex (compareOn packageIndex) (compareOn object)))

instance : Std.LawfulEqOrd ObjectKey :=
  lawfulEqCmp_compareLex fun ⟨⟨_⟩, _⟩ ⟨⟨_⟩, _⟩ h h' => by simp_all [packageIndex]

end ObjectKey

/-- What is noted and checked when a package is made. -/
structure Diagnostics where
  /-- Whether the members of each package are noted. -/
  logPackages : Bool := false
  /-- Whether each function is noted. -/
  logFunctions : Bool := false
  /-- Whether each package is checked for consistency. -/
  checkFunctions : Bool := false

/-- A program. -/
structure Program where
  /-- The packages, by number. -/
  packages : List Package := []
  /-- The package of every import path. -/
  byIdentity : Table String PackageId := .empty
  /-- The importable package of an import path. -/
  byPath : Table String PackageId := .empty
  /-- The package of a short name: of several, the last. -/
  byName : Table String PackageId := .empty
  /-- The methods of declared types. -/
  concreteMethods : Table ObjectKey FunctionId := .empty
  /-- The functions made to close over the receiver of a method. -/
  boundWrappers : Table ObjectKey FunctionId := .empty
  /-- The functions made to take the receiver of a method as first parameter. -/
  interfaceWrappers : Table ObjectKey FunctionId := .empty
  /-- What is noted and checked. -/
  diagnostics : Diagnostics := {}

namespace Program

/-- The functions that need no declaration, by name. -/
def builtins : List String :=
  ["append", "cap", "close", "complex", "copy", "delete", "imag", "len", "make", "new", "panic",
    "print", "println", "real", "recover"]

/-- The package of a number. -/
def package? (p : Program) (id : PackageId) : Option Package := p.packages[id.index]?

/-- The importable package of an import path. -/
def imported? (p : Program) (path : String) : Option Package :=
  (p.byPath.find? path).bind p.package?

/-- The package of a short name. -/
def named? (p : Program) (name : String) : Option Package :=
  (p.byName.find? name).bind p.package?

/-- The function of an id. -/
def function? (p : Program) (id : FunctionId) : Option Function :=
  (p.package? id.package).bind (·.function? id)

/-- The package-level function of a qualified name, a short package name and a member name with a
dot between them. -/
def functionNamed? (p : Program) (qualified : String) : Option FunctionId := do
  let (package, name) ← Text.splitAt? '.' qualified
  let member ← (← p.named? package).member? name
  member.function?

/-- The name that identifies a function: of a method with its receiver type, of another function
with the short name of its package. -/
def qualifiedName (p : Program) (f : Function) : String :=
  match f.receiver? with
  | some recv => s!"({recv.type.text}).{f.name}"
  | none =>
    match p.package? f.package with
    | some package => s!"{package.name}.{f.name}"
    | none => f.name

/-- All functions with their ids, package by package. -/
def functionEntries (p : Program) : List (FunctionId × Function) :=
  p.packages.flatMap Package.functionEntries

/-- The function that a recorded name stands for: a package-level function, or else the first
function of that qualified name. -/
def findFunction? (p : Program) (name : String) : Option FunctionId :=
  match p.functionNamed? name with
  | some id => some id
  | none => (p.functionEntries.find? fun e => p.qualifiedName e.2 = name).map (·.1)

/-- The methods of the type `name` declared in the package of path `path`, by name. -/
def methodsOf (p : Program) (path name : String) : List Function :=
  (p.concreteMethods.values.filterMap p.function?
    |>.filter fun f => (f.receiver?.bind (·.type.namedBase?)) = some (path, name)).mergeSort
      fun f g => f.name ≤ g.name

/-- Changes the package of a number. -/
def modifyPackage (p : Program) (id : PackageId) (change : Package → Package) : Program :=
  { p with packages := p.packages.modify id.index change }

/-- The number of the package that is added next. -/
def nextPackage (p : Program) : PackageId := ⟨p.packages.length⟩

/-- Adds a package under its path and short name. -/
def register (p : Program) (package : Package) : Program :=
  { p with
    packages := p.packages ++ [package]
    byIdentity := p.byIdentity.insert package.path package.id
    byPath := if package.importable then p.byPath.insert package.path package.id else p.byPath
    byName := p.byName.insert package.name package.id }

/-- Notes the methods of a package's types. -/
def registerMethods (p : Program) (package : PackageId) (methods : List (ObjectId × FunctionId)) :
    Program :=
  { p with
    concreteMethods := methods.foldl (fun t m => t.insert ⟨package, m.1⟩ m.2) p.concreteMethods }

/-- Gives a function its basic blocks; none if there is no such function. -/
def setBlocks? (p : Program) (id : FunctionId) (blocks : List Block) : Option Program := do
  let _ ← p.function? id
  some (p.modifyPackage id.package (·.modifyFunction id ({ · with blocks := some blocks })))

end Program

end TraceDebugger
