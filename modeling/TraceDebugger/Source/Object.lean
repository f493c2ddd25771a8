import TraceDebugger.Number.Shortest
import TraceDebugger.Source.Identifier
import TraceDebugger.Source.TyJson
import TraceDebugger.Text.Quoted

/-!
# Objects

The things that a compilation unit declares, as the type checker lists them: types, constants,
variables, functions and imported packages.
-/

namespace TraceDebugger

/-- An exact constant. -/
inductive Constant where
  /-- A truth value. -/
  | bool (value : Bool)
  /-- A whole number. -/
  | int (value : Int64)
  /-- A floating-point number. -/
  | float (value : Binary64)
  /-- A text. -/
  | string (value : String)

namespace Constant

/-- The constant as text. -/
def text : Constant → String
  | .bool b => Text.ofBool b
  | .int n => toString n.toInt
  | .float x => x.text
  | .string s => Text.quoted s

/-- Reads a constant: a whole number past 64 bits is a floating-point number. -/
def decode? : Json → Option Constant
  | .bool b => some (.bool b)
  | .int n =>
    match (Json.int n).int64? with
    | some n => some (.int n)
    | none => (Json.int n).float?.map .float
  | .float x => some (.float x)
  | .str s => some (.string s)
  | _ => none

/-- Writes a constant. -/
def encode : Constant → Json
  | .bool b => .bool b
  | .int n => .int n.toInt
  | .float x => .float x
  | .string s => .str s

end Constant

/-- A declared thing. -/
inductive Object where
  /-- A type, with the objects of its declared methods. -/
  | typeName (name : String) (pos : Option Position) (type underlying : Ty)
    (methods : List ObjectId)
  /-- A constant. -/
  | const (name : String) (pos : Option Position) (type : Ty) (value : Constant)
  /-- A variable. -/
  | var (name : String) (pos : Option Position) (type : Ty)
  /-- A function or method. -/
  | func (name : String) (pos : Option Position) (signature : Signature)
  /-- An imported package. -/
  | package (name : String) (pos : Option Position) (imported : String)

namespace Object

/-- The name. -/
def name : Object → String
  | .typeName name .. | .const name .. | .var name .. | .func name .. | .package name .. => name

/-- Where the object is declared. -/
def pos : Object → Option Position
  | .typeName _ pos .. | .const _ pos .. | .var _ pos _ | .func _ pos _ | .package _ pos _ => pos

/-- The type; an imported package has a type of its name alone. -/
def type : Object → Ty
  | .typeName _ _ type .. | .const _ _ type _ | .var _ _ type => type
  | .func _ _ signature => .func signature
  | .package _ _ imported => .named "" imported

/-- The word for what the object is. -/
def kindName : Object → String
  | .typeName .. => "type"
  | .const .. => "const"
  | .var .. => "var"
  | .func .. => "func"
  | .package .. => "package"

/-- Whether the object is a type. -/
def isTypeName : Object → Bool
  | .typeName .. => true
  | _ => false

/-- The tags of objects, in the order of their numbers. -/
def tags : List String := ["type_name", "const", "var", "func", "package_name"]

/-- Reads an object. -/
def decode? (j : Json) : Option Object :=
  match j.tagged? .direct "kind" tags with
  | some ("type_name", j) => do
    let fields ← j.record? ["name", "pos", "type", "underlying", "methods"]
    some (.typeName (← fields.required "name" Json.string?)
      (← fields.optional "pos" Position.decode?)
      (← fields.required "type" (Ty.decode? .setAside))
      (← fields.required "underlying" (Ty.decode? .setAside))
      (← fields.withDefault "methods" [] (Json.list? ObjectId.decode?)))
  | some ("const", j) => do
    let fields ← j.record? ["name", "pos", "type", "value"]
    some (.const (← fields.required "name" Json.string?)
      (← fields.optional "pos" Position.decode?)
      (← fields.required "type" (Ty.decode? .setAside))
      (← fields.required "value" Constant.decode?))
  | some ("var", j) => do
    let fields ← j.record? ["name", "pos", "type"]
    some (.var (← fields.required "name" Json.string?)
      (← fields.optional "pos" Position.decode?)
      (← fields.required "type" (Ty.decode? .setAside)))
  | some ("func", j) => do
    let fields ← j.record? ["name", "pos", "sig"]
    some (.func (← fields.required "name" Json.string?)
      (← fields.optional "pos" Position.decode?)
      (← fields.required "sig" (Signature.decode? .setAside)))
  | some ("package_name", j) => do
    let fields ← j.record? ["name", "pos", "imported"]
    some (.package (← fields.required "name" Json.string?)
      (← fields.optional "pos" Position.decode?)
      (← fields.required "imported" Json.string?))
  | _ => none

/-- Writes an object. -/
def encode : Object → Json
  | .typeName name pos type underlying methods =>
    .obj [("kind", .str "type_name"), ("name", .str name), ("pos", pos.elim .null Position.encode),
      ("type", type.encode), ("underlying", underlying.encode),
      ("methods", .arr (methods.map ObjectId.encode))]
  | .const name pos type value =>
    .obj [("kind", .str "const"), ("name", .str name), ("pos", pos.elim .null Position.encode),
      ("type", type.encode), ("value", value.encode)]
  | .var name pos type =>
    .obj [("kind", .str "var"), ("name", .str name), ("pos", pos.elim .null Position.encode),
      ("type", type.encode)]
  | .func name pos signature =>
    .obj [("kind", .str "func"), ("name", .str name), ("pos", pos.elim .null Position.encode),
      ("sig", signature.encode)]
  | .package name pos imported =>
    .obj [("kind", .str "package_name"), ("name", .str name),
      ("pos", pos.elim .null Position.encode), ("imported", .str imported)]

end Object

end TraceDebugger
