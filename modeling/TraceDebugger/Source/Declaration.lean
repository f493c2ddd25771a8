import TraceDebugger.Source.Identifier
import TraceDebugger.Source.TyJson

/-!
# Declarations

The declarations in the files of a compilation unit. The body of a function is carried along
without being looked at. A declaration is tagged with its `decl`, so its parts are always read from
what was set aside.
-/

namespace TraceDebugger

/-- The keyword of a declaration other than that of a function. -/
inductive DeclKind where
  | import | const | var | type
  deriving DecidableEq

namespace DeclKind

/-- All keywords, in the order of their numbers. -/
def all : List DeclKind := [.import, .const, .var, .type]

/-- The keyword. -/
def text : DeclKind → String
  | .import => "import"
  | .const => "const"
  | .var => "var"
  | .type => "type"

/-- Reads a keyword. -/
def decode? (j : Json) : Option DeclKind :=
  (j.choice? .setAside (all.map text)).bind fun s => all.find? fun kind => kind.text = s

end DeclKind

/-- One part of a declaration. -/
inductive Spec where
  /-- An import, by path. -/
  | import (path : String)
  /-- Constants or variables. -/
  | value (names : List Ident) (span : Span)
  /-- A type. -/
  | type (name : Ident) (span : Span)

namespace Spec

/-- The word for what is declared. -/
def kindName : Spec → String
  | .import _ => "import"
  | .value .. => "value"
  | .type .. => "type"

/-- Reads one part of a declaration. -/
def decode? (j : Json) : Option Spec :=
  match j.tagged? .setAside "spec" ["import", "value", "type"] with
  | some ("import", j) => do
    let fields ← j.record? ["path"]
    some (.import (← fields.required "path" Json.string?))
  | some ("value", j) => do
    let fields ← j.record? ["names", "span"]
    some (.value (← fields.required "names" (Json.list? Ident.decode?))
      (← fields.withDefault "span" {} Span.decode?))
  | some ("type", j) => do
    let fields ← j.record? ["name", "span"]
    some (.type (← fields.required "name" Ident.decode?)
      (← fields.withDefault "span" {} Span.decode?))
  | _ => none

/-- Writes one part of a declaration. -/
def encode : Spec → Json
  | .import path => .obj [("spec", .str "import"), ("path", .str path)]
  | .value names span =>
    .obj [("spec", .str "value"), ("names", .arr (names.map Ident.encode)), ("span", span.encode)]
  | .type name span => .obj [("spec", .str "type"), ("name", name.encode), ("span", span.encode)]

end Spec

/-- An entry of a list of parameters: names that share a type. -/
structure ParamField where
  /-- The names. -/
  names : List Ident
  /-- The type. -/
  type : Ty

namespace ParamField

/-- Reads an entry of a list of parameters. -/
def decode? (j : Json) : Option ParamField := do
  let fields ← j.record? ["names", "type"]
  some {
    names := ← fields.withDefault "names" [] (Json.list? Ident.decode?)
    type := ← fields.required "type" (Ty.decode? .setAside) }

/-- Writes an entry of a list of parameters. -/
def encode (f : ParamField) : Json :=
  .obj [("names", .arr (f.names.map Ident.encode)), ("type", f.type.encode)]

end ParamField

/-- The declaration of a function or method. -/
structure FuncDecl where
  /-- The name. -/
  name : Ident
  /-- The receiver list, if there is one. -/
  recv : Option (List ParamField)
  /-- The parameter list. -/
  params : List ParamField
  /-- The scope that the signature opens. -/
  scope : Option SourceScopeId
  /-- The body, in canonical form. -/
  body : Option Json
  /-- Where the declaration stands. -/
  span : Span

namespace FuncDecl

/-- Reads the declaration of a function. -/
def decode? (j : Json) : Option FuncDecl := do
  let fields ← j.record? ["name", "recv", "params", "scope", "body", "span"]
  some {
    name := ← fields.required "name" Ident.decode?
    recv := ← fields.optional "recv" (Json.list? ParamField.decode?)
    params := ← fields.withDefault "params" [] (Json.list? ParamField.decode?)
    scope := ← fields.optional "scope" SourceScopeId.decode?
    body := ← fields.optional "body" fun j => some j.canonical
    span := ← fields.withDefault "span" {} Span.decode? }

/-- The fields of a declaration in a document. -/
def encodeFields (d : FuncDecl) : List (String × Json) :=
  [("name", d.name.encode),
    ("recv", d.recv.elim .null fun fs => .arr (fs.map ParamField.encode)),
    ("params", .arr (d.params.map ParamField.encode)),
    ("scope", d.scope.elim .null SourceScopeId.encode),
    ("body", d.body.getD .null), ("span", d.span.encode)]

end FuncDecl

/-- A declaration. -/
inductive Decl where
  /-- A declaration of imports, constants, variables or types. -/
  | gen (kind : DeclKind) (specs : List Spec) (span : Span)
  /-- A declaration of a function. -/
  | func (decl : FuncDecl)

namespace Decl

/-- Reads a declaration. -/
def decode? (j : Json) : Option Decl :=
  match j.tagged? .direct "decl" ["gen", "func"] with
  | some ("gen", j) => do
    let fields ← j.record? ["kind", "specs", "span"]
    some (.gen (← fields.required "kind" DeclKind.decode?)
      (← fields.required "specs" (Json.list? Spec.decode?))
      (← fields.withDefault "span" {} Span.decode?))
  | some ("func", j) => do some (.func (← FuncDecl.decode? j))
  | _ => none

/-- Writes a declaration. -/
def encode : Decl → Json
  | .gen kind specs span =>
    .obj [("decl", .str "gen"), ("kind", .str kind.text), ("specs", .arr (specs.map Spec.encode)),
      ("span", span.encode)]
  | .func decl => .obj (("decl", .str "func") :: decl.encodeFields)

end Decl

/-- A file of declarations. -/
structure File where
  /-- The name of the file. -/
  name : String
  /-- Its declarations in order. -/
  decls : List Decl

namespace File

/-- Reads a file. -/
def decode? (j : Json) : Option File := do
  let fields ← j.record? ["name", "decls"]
  some {
    name := ← fields.required "name" Json.string?
    decls := ← fields.withDefault "decls" [] (Json.list? Decl.decode?) }

/-- Writes a file. -/
def encode (f : File) : Json :=
  .obj [("name", .str f.name), ("decls", .arr (f.decls.map Decl.encode))]

end File

end TraceDebugger
