import TraceDebugger.Source.Unit

/-!
# Items of a unit

What a unit asks to be made, in order (`SourceUnit.items`). For a unit with files these are its
declarations, file by file; for a unit without files, the names of its package scope, and after each
type the methods of that type.
-/

namespace TraceDebugger

/-- The declaration that comes with an object. -/
inductive DeclSource where
  /-- No declaration. -/
  | none
  /-- A declaration of constants or variables, with its span. -/
  | spec (span : Span)
  /-- A declaration of a function. -/
  | func (decl : FuncDecl)

namespace DeclSource

/-- The span of a declaration of constants or variables. -/
def span? : DeclSource → Option Span
  | .spec span => some span
  | _ => Option.none

/-- The declaration of a function. -/
def func? : DeclSource → Option FuncDecl
  | .func decl => some decl
  | _ => Option.none

end DeclSource

/-- A thing that a unit asks for. -/
inductive Item where
  /-- A file begins. -/
  | file (name : String)
  /-- A declared initializer. -/
  | initializer (decl : FuncDecl)
  /-- An identifier and the object that it is said to name. -/
  | ident (name : String) (object : Option ObjectId) (source : DeclSource)
  /-- A method of a type that is known by its object only. -/
  | method (object : ObjectId)
  /-- A part of a declaration that does not fit its keyword. -/
  | misplaced (kind : DeclKind) (spec : Spec)

namespace Item

/-- The item of an identifier, unless it declares nothing. -/
def ofIdent (source : DeclSource) (i : Ident) : List Item :=
  if i.isBlank then [] else [.ident i.name i.object source]

/-- The items of one part of a declaration. Imports ask for nothing. -/
def ofSpec : DeclKind → Spec → List Item
  | .import, _ => []
  | .const, .value names span => names.flatMap (ofIdent (.spec span))
  | .var, .value names span => names.flatMap (ofIdent (.spec span))
  | .type, .type name _ => ofIdent .none name
  | kind, spec => [.misplaced kind spec]

/-- The items of a declaration. A function called `init` without a receiver is an initializer. -/
def ofDecl : Decl → List Item
  | .gen kind specs _ => specs.flatMap (ofSpec kind)
  | .func decl =>
    if decl.recv.isNone ∧ decl.name.name = "init" then [.initializer decl]
    else ofIdent (.func decl) decl.name

/-- The items of a file. -/
def ofFile (f : File) : List Item := .file f.name :: f.decls.flatMap ofDecl

end Item

namespace SourceUnit

/-- The declared methods of an object, if it is a type. -/
def methodsOf (u : SourceUnit) (id : ObjectId) : List ObjectId :=
  match u.object? id with
  | some (.typeName _ _ _ _ methods) => methods
  | _ => []

/-- The items of the package scope. -/
def scopeItems (u : SourceUnit) : List Item :=
  match u.packageScope? with
  | none => []
  | some scope => scope.names.entries.flatMap fun (name, object) =>
    .ident name (some object) .none :: (u.methodsOf object).map .method

/-- The items of a unit. -/
def items (u : SourceUnit) : List Item :=
  if u.isBinary then u.scopeItems else u.files.flatMap Item.ofFile

end SourceUnit

end TraceDebugger
