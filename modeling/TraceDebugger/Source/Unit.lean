import TraceDebugger.Source.Declaration
import TraceDebugger.Source.Object

/-!
# Compilation units

A compilation unit as the type checker leaves it: the objects of one package, its scopes with the
names bound in each, and its files. A unit without files describes a package of which only the
scopes and objects are known.
-/

namespace TraceDebugger

/-- A lexical scope of the type checker. -/
structure SourceScope where
  /-- The text that the scope covers. -/
  span : Span
  /-- The names bound directly in this scope. -/
  names : Table String ObjectId
  /-- The scopes directly inside. -/
  children : List SourceScopeId

namespace SourceScope

/-- Reads a scope. -/
def decode? (j : Json) : Option SourceScope := do
  let fields ← j.record? ["span", "names", "children"]
  some {
    span := ← fields.withDefault "span" {} Span.decode?
    names := ← fields.withDefault "names" .empty (Json.table? ObjectId.decode?)
    children := ← fields.withDefault "children" [] (Json.list? SourceScopeId.decode?) }

/-- Writes a scope. -/
def encode (s : SourceScope) : Json :=
  .obj [("span", s.span.encode),
    ("names", .obj (s.names.entries.map fun e => (e.1, e.2.encode))),
    ("children", .arr (s.children.map SourceScopeId.encode))]

end SourceScope

/-- A type-checked compilation unit. -/
structure SourceUnit where
  /-- The import path of the package. -/
  path : String
  /-- The short name of the package. -/
  name : String
  /-- Whether the package can be imported by its path. -/
  importable : Bool
  /-- What the type checker found wrong, if anything. -/
  error : Option String
  /-- The objects, by number. -/
  objects : List Object
  /-- The scopes, by number; scope zero is that of the package. -/
  scopes : List SourceScope
  /-- The files. -/
  files : List File

namespace SourceUnit

/-- Whether only scopes and objects are known. -/
def isBinary (u : SourceUnit) : Bool := u.files.isEmpty

/-- The object of a number. -/
def object? (u : SourceUnit) (id : ObjectId) : Option Object := u.objects[id.index.toNat]?

/-- The scope of a number. -/
def scope? (u : SourceUnit) (id : SourceScopeId) : Option SourceScope := u.scopes[id.index.toNat]?

/-- The scope of the package. -/
def packageScope? (u : SourceUnit) : Option SourceScope := u.scopes.head?

/-- Reads a compilation unit. -/
def decode? (j : Json) : Option SourceUnit := do
  let fields ← j.record? ["path", "name", "importable", "error", "objects", "scopes", "files"]
  some {
    path := ← fields.required "path" Json.string?
    name := ← fields.required "name" Json.string?
    importable := ← fields.withDefault "importable" true Json.bool?
    error := ← fields.optional "error" Json.string?
    objects := ← fields.withDefault "objects" [] (Json.list? Object.decode?)
    scopes := ← fields.withDefault "scopes" [] (Json.list? SourceScope.decode?)
    files := ← fields.withDefault "files" [] (Json.list? File.decode?) }

/-- Writes a compilation unit. -/
def encode (u : SourceUnit) : Json :=
  .obj [("path", .str u.path), ("name", .str u.name), ("importable", .bool u.importable),
    ("error", u.error.elim .null .str), ("objects", .arr (u.objects.map Object.encode)),
    ("scopes", .arr (u.scopes.map SourceScope.encode)),
    ("files", .arr (u.files.map File.encode))]

end SourceUnit

end TraceDebugger
