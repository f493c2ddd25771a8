import TraceDebugger.Program.Member

/-!
# Packages

A package of a program: its members, functions and scopes, and what each object of its unit has
become. A package begins with its initializer (`Package.start`), which is function number zero.
-/

namespace TraceDebugger

/-- A package of a program. -/
structure Package where
  /-- Its number. -/
  id : PackageId
  /-- The unit from which it is made. -/
  unit : SourceUnit
  /-- The members by name. -/
  members : Table String Member := .empty
  /-- What the objects of the unit have become. -/
  values : Table ObjectId Built := .empty
  /-- The functions, by number. -/
  functions : List Function := []
  /-- The scopes, by number. -/
  scopes : List Scope := []
  /-- The numbers of the unit's scopes. -/
  scopeNumbers : Table SourceScopeId ScopeId := .empty
  /-- What is kept of every declared initializer, in order. -/
  initBodies : List FuncSource := []

namespace Package

/-- The import path. -/
def path (p : Package) : String := p.unit.path

/-- The short name. -/
def name (p : Package) : String := p.unit.name

/-- Whether the package can be imported by its path. -/
def importable (p : Package) : Bool := p.unit.importable

/-- The package as text. -/
def text (p : Package) : String := s!"package {p.path}"

/-- The member of a name. -/
def member? (p : Package) (name : String) : Option Member := p.members.find? name

/-- The function of an id, if it is one of this package. -/
def function? (p : Package) (id : FunctionId) : Option Function :=
  if id.package = p.id then p.functions[id.index]? else none

/-- The functions with their ids. -/
def functionEntries (p : Package) : List (FunctionId × Function) :=
  p.functions.zipIdx.map fun e => (⟨p.id, e.2⟩, e.1)

/-- The id of the package initializer. -/
def initId (p : Package) : FunctionId := ⟨p.id, 0⟩

/-- The scope of a number. -/
def scope? (p : Package) (id : ScopeId) : Option Scope := p.scopes[id.index]?

/-- The number of a scope of the unit. -/
def scopeFor? (p : Package) (id : SourceScopeId) : Option ScopeId := p.scopeNumbers.find? id

/-- A scope and the scopes around it, at most `fuel` of them. -/
def ancestorsFrom (p : Package) : Nat → Option ScopeId → List ScopeId
  | 0, _ => []
  | _, none => []
  | fuel + 1, some id =>
    match p.scope? id with
    | some scope => scope.id :: p.ancestorsFrom fuel scope.parent
    | none => []

/-- A scope and the scopes around it, out to that of the package. A scope is numbered after the one
around it, so there are no more of them than scopes. -/
def ancestors (p : Package) (id : ScopeId) : List ScopeId :=
  p.ancestorsFrom p.scopes.length (some id)

/-- Stores a member under its name, in place of an earlier one of that name. -/
def insertMember (p : Package) (m : Member) : Package :=
  { p with members := p.members.insert m.name m }

/-- Notes what an object has become. -/
def recordValue (p : Package) (object : ObjectId) (value : Built) : Package :=
  { p with values := p.values.insert object value }

/-- Adds a function at the end. -/
def addFunction (p : Package) (f : Function) : Package :=
  { p with functions := p.functions ++ [f] }

/-- The id of the function that is added next. -/
def nextFunction (p : Package) : FunctionId := ⟨p.id, p.functions.length⟩

/-- Changes the function of an id, if it is one of this package. -/
def modifyFunction (p : Package) (id : FunctionId) (change : Function → Function) : Package :=
  if id.package = p.id then { p with functions := p.functions.modify id.index change } else p

/-- Notes what opened a scope. -/
def setScopeNode (p : Package) (id : ScopeId) (node : ScopeNode) : Package :=
  { p with scopes := p.scopes.modify id.index fun scope => { scope with node := node } }

/-- The package initializer before any declaration of it. -/
def initializer (id : PackageId) : Function :=
  { name := "init", signature := default, origin := .synthetic "package initializer",
    package := id, scope := some .package }

/-- A package with its scopes and initializer only. -/
def start (id : PackageId) (unit : SourceUnit) : Package :=
  let numbering := unit.numbering
  let empty : Package :=
    { id, unit
      functions := [initializer id]
      scopes := numbering.map (·.2)
      scopeNumbers := .ofList (numbering.map fun e => (e.1, e.2.id)) }
  empty.insertMember (.function "init" ⟨id, 0⟩)

/-- The variable that a name is bound to, if it is bound to one. -/
def localDecl? (p : Package) (scope : ScopeId) (name : String) (object : ObjectId) :
    Option LocalDecl :=
  match p.unit.object? object with
  | some (.var _ pos type) => some ⟨name, type, scope, pos.elim {} Span.point⟩
  | _ => none

/-- The variables declared in the scopes below and including `root`, depth-first and by name in a
scope; in `root` itself the names of parameters do not count. -/
def localDecls (p : Package) (root : SourceScopeId) (params : List String) : List LocalDecl :=
  (p.unit.subtree p.scopeNumbers root).flatMap fun (id, scope, info) =>
    info.names.entries.filterMap fun (name, object) =>
      if id = root ∧ name ∈ params then none else p.localDecl? scope name object

/-- Gives a slot of `function` to every variable declared in the scopes below and including `root`,
except those of `root` itself that carry the name of a parameter. -/
def deriveLocals (p : Package) (function : FunctionId) (root : SourceScopeId)
    (params : List String) : Package :=
  p.modifyFunction function (·.addLocals (p.localDecls root params))

/-- What the inventory says about a member, after its kind and name. -/
def memberDetail (p : Package) : Member → String
  | .type t => t.type.text
  | .const c => s!"{c.name} = {c.value.text}"
  | .global g => g.type.deref.text
  | .function _ id => (p.function? id).elim "" fun f => "func" ++ f.signature.text

/-- A line of the inventory. -/
def memberLine (p : Package) (width : Nat) (m : String × Member) : String :=
  "  " ++ Text.padRight 5 m.2.kindName ++ " " ++ Text.padRight width m.1 ++ " "
    ++ p.memberDetail m.2 ++ "\n"

/-- The members of the package, a line each, in the order of their names. The names are padded to
the number of bytes of the longest. -/
def inventory (p : Package) : String :=
  let width := (p.members.keys.map String.utf8ByteSize).foldl max 0
  s!"package {p.path}:\n" ++ String.join (p.members.entries.map (p.memberLine width))

end Package

end TraceDebugger
