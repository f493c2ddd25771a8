import TraceDebugger.Program.Basic

/-!
# What a name refers to

The meaning of a name at a place in a function. Local variables come first, those of an inner scope
before those of an outer one, then parameters, then the members of the package, and last packages by
their short names. A name with a dot is a member of the package before the dot, unless what stands
there is a local variable.
-/

namespace TraceDebugger

/-- What a name refers to. -/
inductive Referent where
  /-- A local variable, with its slot. -/
  | local (slot : Nat) (var : Local)
  /-- A parameter, with its place. -/
  | param (index : Nat) (var : Var)
  /-- A function. -/
  | function (function : Function)
  /-- A package-level variable. -/
  | global (package : Package) (global : Global)
  /-- A constant. -/
  | const (package : Package) (const : ConstMember)
  /-- A type. -/
  | type (package : Package) (type : TypeMember)
  /-- A package. -/
  | package (package : Package)

/-- Why a name refers to nothing. -/
inductive ResolveError where
  /-- There is nothing of that name. -/
  | notFound (name : String)
  /-- The package has no member of that name. -/
  | notAMember (name package : String)
  /-- A local variable stands before the dot. -/
  | dottedLocal (name : String)
  deriving DecidableEq

/-- The cause in words. -/
def ResolveError.message : ResolveError → String
  | .notFound name => s!"Can't find name: {name}"
  | .notAMember name package => s!"{name} is not a member of {package}"
  | .dottedLocal name => s!"Sorry, dotted variable lookup for local {name} not supported yet"

/-- The slot of the local variable that a name means in a scope, or else in the scope of the
function: the one declared in the nearest scope. -/
def Package.lookupLocal? (p : Package) (f : Function) (scope : Option ScopeId) (name : String) :
    Option Nat := do
  (p.ancestors (← scope.or f.scope)).findSome? fun s => f.slot? name s

/-- The first parameter of a name, with its place. -/
def Function.findParam? (f : Function) (name : String) : Option (Nat × Var) :=
  (f.params.zipIdx.find? fun e => e.1.name = name).map fun e => (e.2, e.1)

namespace Program

/-- The meaning of a name as a member of a package. -/
def resolveMember? (p : Program) (package : Package) (name : String) : Option Referent := do
  match ← package.member? name with
  | .function _ id => (p.function? id).map .function
  | .global g => some (.global package g)
  | .const c => some (.const package c)
  | .type t => some (.type package t)

/-- The meaning of a name with a dot. -/
def resolveQualified (p : Program) (package : Package) (f : Function) (scope : Option ScopeId)
    (qualifier name : String) : Except ResolveError Referent :=
  if (package.lookupLocal? f scope qualifier).isSome then .error (.dottedLocal qualifier) else
  match p.named? qualifier with
  | none => .error (.notFound qualifier)
  | some target =>
    match p.resolveMember? target name with
    | some referent => .ok referent
    | none => .error (.notAMember name target.path)

/-- The local variable that a name means. -/
def resolveLocal? (package : Package) (f : Function) (scope : Option ScopeId) (name : String) :
    Option Referent := do
  let slot ← package.lookupLocal? f scope name
  some (.local slot (← f.locals[slot]?))

/-- The meaning of a name without a dot. -/
def resolveBare? (p : Program) (package : Package) (f : Function) (scope : Option ScopeId)
    (name : String) : Option Referent :=
  (resolveLocal? package f scope name)
    <|> (f.findParam? name).map (fun e => .param e.1 e.2)
    <|> p.resolveMember? package name
    <|> (p.named? name).map .package

/-- The meaning of a name in a function, with `scope` the current scope. -/
def resolve (p : Program) (f : Function) (scope : Option ScopeId) (name : String) :
    Except ResolveError Referent :=
  match p.package? f.package with
  | none => .error (.notFound name)
  | some package =>
    match Text.splitAt? '.' name with
    | some (qualifier, rest) => p.resolveQualified package f scope qualifier rest
    | none =>
      match p.resolveBare? package f scope name with
      | some referent => .ok referent
      | none => .error (.notFound name)

end Program

end TraceDebugger
