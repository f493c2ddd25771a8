import TraceDebugger.Json.Decode
import TraceDebugger.Source.Ty

/-!
# Types in documents

A type is a record tagged with its `kind`. The decoders follow the nesting of the document, of which
no part is nested deeper than the whole.
-/

namespace TraceDebugger

/-- The tags of types, in the order of their numbers. -/
def Ty.tags : List String :=
  ["basic", "named", "pointer", "slice", "map", "func", "tuple", "struct", "interface"]

/-- Reads a basic type by its name. -/
def BasicKind.decode? (j : Json) : Option BasicKind :=
  (j.choice? .setAside (BasicKind.all.map BasicKind.tag)).bind BasicKind.ofTag?

mutual

/-- Reads a type of at most the given nesting. -/
def Ty.read? : Nat → Reading → Json → Option Ty
  | 0, _, _ => none
  | fuel + 1, reading, j =>
    match j.tagged? reading "kind" Ty.tags with
    | some ("basic", j) => do
      let fields ← j.record? ["basic"]
      some (.basic (← fields.required "basic" BasicKind.decode?))
    | some ("named", j) => do
      let fields ← j.record? ["package", "name"]
      some (.named (← fields.required "package" Json.string?)
        (← fields.required "name" Json.string?))
    | some ("pointer", j) => do
      let fields ← j.record? ["elem"]
      some (.pointer (← fields.required "elem" (Ty.read? fuel .setAside)))
    | some ("slice", j) => do
      let fields ← j.record? ["elem"]
      some (.slice (← fields.required "elem" (Ty.read? fuel .setAside)))
    | some ("map", j) => do
      let fields ← j.record? ["key", "value"]
      some (.map (← fields.required "key" (Ty.read? fuel .setAside))
        (← fields.required "value" (Ty.read? fuel .setAside)))
    | some ("func", j) => do
      let fields ← j.record? ["sig"]
      some (.func (← fields.required "sig" (Signature.read? fuel .setAside)))
    | some ("tuple", j) => do
      let fields ← j.record? ["vars"]
      some (.tuple (← fields.required "vars" (Json.list? (Var.read? fuel .setAside))))
    | some ("struct", j) => do
      let fields ← j.record? ["fields"]
      some (.struct (← fields.required "fields" (Json.list? (Var.read? fuel .setAside))))
    | some ("interface", j) => do
      let fields ← j.record? ["methods"]
      some (.interface (← fields.required "methods" (Json.list? Json.string?)))
    | _ => none

/-- Reads a variable of at most the given nesting. -/
def Var.read? : Nat → Reading → Json → Option Var
  | 0, _, _ => none
  | fuel + 1, reading, j => do
    let fields ← j.record? ["name", "type"]
    some {
      name := ← fields.withDefault "name" "" Json.string?
      type := ← fields.required "type" (Ty.read? fuel reading) }

/-- Reads a signature of at most the given nesting. -/
def Signature.read? : Nat → Reading → Json → Option Signature
  | 0, _, _ => none
  | fuel + 1, reading, j => do
    let fields ← j.record? ["recv", "params", "results", "variadic"]
    some {
      recv := ← fields.optional "recv" (Var.read? fuel reading)
      params := ← fields.withDefault "params" [] (Json.list? (Var.read? fuel reading))
      results := ← fields.withDefault "results" [] (Json.list? (Var.read? fuel reading))
      variadic := ← fields.withDefault "variadic" false Json.bool? }

end

/-- Reads a type. -/
def Ty.decode? (reading : Reading) (j : Json) : Option Ty := Ty.read? (j.depth + 1) reading j

/-- Reads a variable. -/
def Var.decode? (reading : Reading) (j : Json) : Option Var := Var.read? (j.depth + 1) reading j

/-- Reads a signature. -/
def Signature.decode? (reading : Reading) (j : Json) : Option Signature :=
  Signature.read? (j.depth + 1) reading j

mutual

/-- Writes a type. -/
def Ty.encode : Ty → Json
  | .basic kind => .obj [("kind", .str "basic"), ("basic", .str kind.tag)]
  | .named package name =>
    .obj [("kind", .str "named"), ("package", .str package), ("name", .str name)]
  | .pointer elem => .obj [("kind", .str "pointer"), ("elem", elem.encode)]
  | .slice elem => .obj [("kind", .str "slice"), ("elem", elem.encode)]
  | .map key value => .obj [("kind", .str "map"), ("key", key.encode), ("value", value.encode)]
  | .func signature => .obj [("kind", .str "func"), ("sig", signature.encode)]
  | .tuple vars => .obj [("kind", .str "tuple"), ("vars", .arr (Var.encodeAll vars))]
  | .struct fields => .obj [("kind", .str "struct"), ("fields", .arr (Var.encodeAll fields))]
  | .interface methods =>
    .obj [("kind", .str "interface"), ("methods", .arr (methods.map .str))]

/-- Writes a variable. -/
def Var.encode : Var → Json
  | ⟨name, type⟩ => .obj [("name", .str name), ("type", type.encode)]

/-- Writes variables. -/
def Var.encodeAll : List Var → List Json
  | [] => []
  | v :: vs => v.encode :: Var.encodeAll vs

/-- Writes a receiver, if there is one. -/
def Var.encodeReceiver : Option Var → Json
  | none => .null
  | some v => v.encode

/-- Writes a signature. -/
def Signature.encode : Signature → Json
  | ⟨recv, params, results, variadic⟩ =>
    .obj [("recv", Var.encodeReceiver recv), ("params", .arr (Var.encodeAll params)),
      ("results", .arr (Var.encodeAll results)), ("variadic", .bool variadic)]

end

end TraceDebugger
