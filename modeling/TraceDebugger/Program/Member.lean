import TraceDebugger.Program.Function

/-!
# Members of a package

What a package offers by name: types, constants, package-level variables and functions.
-/

namespace TraceDebugger

/-- A constant with its type. -/
structure TypedConstant where
  /-- The constant. -/
  value : Constant
  /-- The type. -/
  type : Ty
  /-- Where it is declared. -/
  span : Span

/-- The constant and its type as text. -/
def TypedConstant.text (c : TypedConstant) : String := s!"{c.value.text}:{c.type.text}"

/-- A type of a package. -/
structure TypeMember where
  /-- The name. -/
  name : String
  /-- The object that declares it. -/
  object : ObjectId
  /-- The declared type. -/
  type : Ty
  /-- The type that it is made of. -/
  underlying : Ty
  /-- Where it is declared. -/
  pos : Option Position

/-- A constant of a package. -/
structure ConstMember where
  /-- The name. -/
  name : String
  /-- The object that declares it. -/
  object : ObjectId
  /-- The constant. -/
  value : TypedConstant

/-- A variable of a package. -/
structure Global where
  /-- The name. -/
  name : String
  /-- The object that declares it, if one does. -/
  object : Option ObjectId
  /-- The type of its address: a pointer to the declared type. -/
  type : Ty
  /-- Where it is declared. -/
  span : Span

/-- A member of a package. -/
inductive Member where
  /-- A type. -/
  | type (member : TypeMember)
  /-- A constant. -/
  | const (member : ConstMember)
  /-- A variable. -/
  | global (member : Global)
  /-- A function. -/
  | function (name : String) (id : FunctionId)

namespace Member

/-- The name. -/
def name : Member → String
  | .type t => t.name
  | .const c => c.name
  | .global g => g.name
  | .function name _ => name

/-- The word for what the member is. -/
def kindName : Member → String
  | .type _ => "type"
  | .const _ => "const"
  | .global _ => "var"
  | .function .. => "func"

/-- The function that the member is. -/
def function? : Member → Option FunctionId
  | .function _ id => some id
  | _ => none

end Member

/-- What an object of the unit has become. -/
inductive Built where
  /-- A type. -/
  | type
  /-- A constant. -/
  | const (value : TypedConstant)
  /-- A package-level variable, by name. -/
  | global (name : String)
  /-- A function or method. -/
  | function (id : FunctionId)

end TraceDebugger
