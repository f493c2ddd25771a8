import TraceDebugger.Program.Basic

/-!
# Functions that no unit declares

The functions that are made on demand: functions without a name inside others, and for a method the
function that closes over its receiver and the one that takes the receiver as its first parameter.
For a method each of the two is made once, and found again later.
-/

namespace TraceDebugger.Program

/-- Adds a function without a name inside `enclosing`, a function of the package. It is named for
the function around it and its place there. -/
def addAnonymous? (p : Program) (package : PackageId) (enclosing : FunctionId)
    (signature : Signature) (freeVars : List Var) : Option (Program × FunctionId) := do
  let pkg ← p.package? package
  let parent ← pkg.function? enclosing
  let id := pkg.nextFunction
  let f : Function :=
    { name := s!"{parent.name}${parent.anonymous.length + 1}"
      signature
      origin := .synthetic "anonymous function"
      package := pkg.id
      scope := parent.scope
      freeVars
      enclosing := some enclosing }
  let change (pkg : Package) : Package :=
    (pkg.addFunction f).modifyFunction enclosing
      fun parent => { parent with anonymous := parent.anonymous ++ [id] }
  some (p.modifyPackage package change, id)

/-- The name, signature and receiver of a method. -/
def method? (p : Program) (key : ObjectKey) : Option (String × Signature × Var) := do
  match ← (← p.package? key.package).unit.object? key.object with
  | .func name _ signature => some (name, signature, ← signature.recv)
  | _ => none

/-- The function that closes over the receiver of a method. -/
def boundWrapperOf (key : ObjectKey) (name : String) (signature : Signature) (recv : Var) :
    Function :=
  { name := s!"{name}$bound"
    signature := { signature with recv := none }
    origin := .synthetic s!"bound method wrapper for ({recv.type.text}).{name}"
    package := key.package
    freeVars := [recv] }

/-- The function that takes the receiver of a method as its first parameter. -/
def interfaceWrapperOf (key : ObjectKey) (name : String) (signature : Signature) (recv : Var) :
    Function :=
  { name
    signature := { signature with
      recv := none
      params := ⟨"recv", recv.type⟩ :: signature.params }
    origin := .synthetic s!"interface method wrapper for ({recv.type.text}).{name}"
    package := key.package }

/-- Adds a function at the end of a package. -/
def addFunction (p : Program) (package : PackageId) (f : Function) : Program :=
  p.modifyPackage package (·.addFunction f)

/-- The function that closes over the receiver of a method, made on the first request; none if
there is no such method. -/
def boundWrapper? (p : Program) (key : ObjectKey) : Option (Program × FunctionId) :=
  match p.boundWrappers.find? key with
  | some id => some (p, id)
  | none => do
    let (name, signature, recv) ← p.method? key
    let id := (← p.package? key.package).nextFunction
    let p := p.addFunction key.package (boundWrapperOf key name signature recv)
    some ({ p with boundWrappers := p.boundWrappers.insert key id }, id)

/-- The function that takes the receiver of a method as its first parameter, made on the first
request; none if there is no such method. -/
def interfaceWrapper? (p : Program) (key : ObjectKey) : Option (Program × FunctionId) :=
  match p.interfaceWrappers.find? key with
  | some id => some (p, id)
  | none => do
    let (name, signature, recv) ← p.method? key
    let id := (← p.package? key.package).nextFunction
    let p := p.addFunction key.package (interfaceWrapperOf key name signature recv)
    some ({ p with interfaceWrappers := p.interfaceWrappers.insert key id }, id)

end TraceDebugger.Program
