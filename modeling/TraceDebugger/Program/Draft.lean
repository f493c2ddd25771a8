import TraceDebugger.Data.Log
import TraceDebugger.Program.Item
import TraceDebugger.Program.Package
import TraceDebugger.Program.Violation

/-!
# Packages in the making

A package is made by working through the items of its unit (`Draft.build`). The first item that
cannot be made stops the work. An object that has been made before is not made again.
-/

namespace TraceDebugger

/-- A package in the making. -/
structure Draft where
  /-- The package so far. -/
  package : Package
  /-- The methods made so far. -/
  methods : List (ObjectId × FunctionId) := []
  /-- The notes taken so far. -/
  log : List Record := []

namespace Draft

/-- The object that an identifier names. -/
def resolve (u : SourceUnit) (name : String) (object : Option ObjectId) :
    Except Violation ObjectId :=
  match object with
  | some id => if (u.object? id).isSome then .ok id else .error (.unresolved name)
  | none => .error (.unresolved name)

/-- Whether a type is, or points to, one that the unit declares in its package scope. -/
def isDeclaredType (u : SourceUnit) (t : Ty) : Bool :=
  match t.namedBase? with
  | some (path, name) =>
    path = u.path &&
      (((u.packageScope?.bind (·.names.find? name)).bind u.object?).any Object.isTypeName)
  | none => false

/-- The constant that an object declares. Its span begins at the object, or else with the
declaration, and ends with the declaration, or else at the object. -/
def constantOf (source : DeclSource) (pos : Option Position) (type : Ty) (value : Constant) :
    TypedConstant :=
  { value, type
    span := ⟨pos.or (source.span?.bind (·.start)), (source.span?.bind (·.stop)).or pos⟩ }

/-- The function that an object declares. -/
def functionOf (p : Package) (object : ObjectId) (source : DeclSource) (name : String)
    (pos : Option Position) (signature : Signature) : Function :=
  { name, signature
    object := some object
    origin := match source.func? with
      | some decl => .declared decl.source
      | none => .synthetic "loaded from gc object file"
    package := p.id
    scope := (source.func?.bind (·.scope)).bind p.scopeFor?
    span := ⟨pos, (source.func?.bind (·.span.stop)).or pos⟩ }

/-- Adds the function that an object declares, with its scope and its local variables. -/
def addFunction (p : Package) (object : ObjectId) (source : DeclSource) (name : String)
    (pos : Option Position) (signature : Signature) : Package :=
  let f := functionOf p object source name pos signature
  let id := p.nextFunction
  let p := match f.scope with
    | some scope => p.setScopeNode scope (.function object)
    | none => p
  let p := (p.addFunction f).recordValue object (.function id)
  match source.func?.bind (·.scope) with
  | some root => p.deriveLocals id root (signature.allParams.map (·.name))
  | none => p

/-- Makes what an object declares, unless it has been made before. -/
def makeObject (d : Draft) (id : ObjectId) (source : DeclSource) : Except Violation Draft :=
  let p := d.package
  if p.values.contains id then .ok d else
  match p.unit.object? id with
  | none => .error (.unresolved s!"#{id.index.toNat}")
  | some (.typeName name pos type underlying _) =>
    let member : TypeMember := ⟨name, id, type, underlying, pos⟩
    .ok { d with package := (p.recordValue id .type).insertMember (.type member) }
  | some (.const name pos type value) =>
    let constant := constantOf source pos type value
    let member : ConstMember := ⟨name, id, constant⟩
    .ok { d with package := (p.recordValue id (.const constant)).insertMember (.const member) }
  | some (.var name pos type) =>
    let span : Span := ⟨pos, (source.span?.bind (·.stop)).or pos⟩
    let member : Global := ⟨name, some id, .pointer type, span⟩
    .ok { d with package := (p.recordValue id (.global name)).insertMember (.global member) }
  | some (.func name pos signature) =>
    let function := p.nextFunction
    let p := addFunction p id source name pos signature
    match signature.recv with
    | none => .ok { d with package := p.insertMember (.function name function) }
    | some recv =>
      if isDeclaredType p.unit recv.type then
        .ok { d with package := p, methods := d.methods ++ [(id, function)] }
      else .error (.badReceiver name recv.type.text)
  | some (.package name ..) => .error (.unexpectedObject name "package")

/-- Notes that the package initializer is declared, the first time. -/
def initRecords (p : Package) (decl : FuncDecl) : List Record :=
  match (p.functions[0]?).bind (·.syntheticReason?) with
  | some _ => [⟨.debug, s!"package {p.path}: init declared at {decl.span.text}"⟩]
  | none => []

/-- Merges a declared initializer into the package initializer, which takes over the first
declaration and the local variables of all of them. -/
def adoptInit (d : Draft) (decl : FuncDecl) : Draft :=
  let p := { d.package with initBodies := d.package.initBodies ++ [decl.source] }
  let p := p.modifyFunction p.initId (·.adopt decl.source)
  { d with
    package := match decl.scope with
      | some root => p.deriveLocals p.initId root []
      | none => p
    log := d.log ++ initRecords d.package decl }

/-- Makes one item. -/
def make (d : Draft) : Item → Except Violation Draft
  | .file name => .ok { d with log := d.log ++ [⟨.trace, s!"creating members of {name}"⟩] }
  | .initializer decl => .ok (d.adoptInit decl)
  | .ident name object source => do d.makeObject (← resolve d.package.unit name object) source
  | .method object => d.makeObject object .none
  | .misplaced kind spec => .error (.unexpectedSpec kind.text spec.kindName)

/-- Makes items up to the first that cannot be made. -/
def build (d : Draft) : List Item → Draft × Option Violation
  | [] => (d, none)
  | item :: rest =>
    match d.make item with
    | .ok d => d.build rest
    | .error cause => (d, some cause)

/-- The finished package, with the variable that guards its initializer. -/
def finish (d : Draft) : Package :=
  d.package.insertMember (.global ⟨"init$guard", none, .pointer (.basic .bool), {}⟩)

end Draft

end TraceDebugger
