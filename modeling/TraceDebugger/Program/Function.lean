import TraceDebugger.Data.Order
import TraceDebugger.Program.Scope

/-!
# Functions

A function of a program, with the slots of its local variables and the table by which they are
found, and with its basic blocks once they are there.
-/

namespace TraceDebugger

/-- The number of a package in its program. -/
structure PackageId where
  /-- The number. -/
  index : Nat
  deriving DecidableEq

/-- The name of a function in a program: its package and its number there. -/
structure FunctionId where
  /-- The package. -/
  package : PackageId
  /-- The number. -/
  index : Nat
  deriving DecidableEq

/-- A local variable by its name and the scope that declares it. -/
structure LocalKey where
  /-- The name. -/
  name : String
  /-- The scope. -/
  scope : ScopeId
  deriving DecidableEq

namespace LocalKey

/-- The number of the scope. -/
def scopeIndex (k : LocalKey) : Nat := k.scope.index

instance : Ord LocalKey := ⟨compareLex (compareOn name) (compareOn scopeIndex)⟩

instance : Std.TransOrd LocalKey :=
  inferInstanceAs (Std.TransCmp (compareLex (compareOn name) (compareOn scopeIndex)))

instance : Std.LawfulEqOrd LocalKey :=
  lawfulEqCmp_compareLex fun ⟨_, ⟨_⟩⟩ ⟨_, ⟨_⟩⟩ h h' => by simp_all [scopeIndex]

end LocalKey

/-- What is kept of the declaration of a function. -/
structure FuncSource where
  /-- The receiver list, if there is one. -/
  recv : Option (List ParamField)
  /-- The parameter list. -/
  params : List ParamField
  /-- The body. -/
  body : Option Json
  /-- Where the declaration stands. -/
  span : Span

/-- The parts of a declaration that are kept. -/
def FuncDecl.source (d : FuncDecl) : FuncSource := ⟨d.recv, d.params, d.body, d.span⟩

/-- Where a function comes from. -/
inductive Origin where
  /-- A declaration. -/
  | declared (source : FuncSource)
  /-- The library itself, for a reason. -/
  | synthetic (reason : String)

/-- A variable declared in a function. -/
structure LocalDecl where
  /-- The name. -/
  name : String
  /-- The type. -/
  type : Ty
  /-- The scope that declares it. -/
  scope : ScopeId
  /-- Where it is declared. -/
  span : Span

/-- A local variable of a function, with its slot. -/
structure Local where
  /-- The name. -/
  name : String
  /-- The type. -/
  type : Ty
  /-- The scope that declares it. -/
  scope : ScopeId
  /-- The slot that holds its value. -/
  slot : Nat
  /-- Where it is declared. -/
  span : Span

namespace Local

/-- The variable as source text. -/
def text (l : Local) : String := l.name ++ " " ++ l.type.text

/-- The key by which the variable is found. -/
def key (l : Local) : LocalKey := ⟨l.name, l.scope⟩

end Local

/-- A basic block. -/
structure Block where
  /-- The number of the block. -/
  index : Nat
  /-- What the block is for. -/
  comment : String
  /-- The scope of the block. -/
  scope : Option ScopeId
  /-- The instructions as text. -/
  instrs : List String

/-- A function of a program. -/
structure Function where
  /-- The name. -/
  name : String
  /-- The object that declares it. -/
  object : Option ObjectId := none
  /-- The signature. -/
  signature : Signature
  /-- Where it comes from. -/
  origin : Origin
  /-- Where it stands. -/
  span : Span := {}
  /-- Its package. -/
  package : PackageId
  /-- The scope of its signature. -/
  scope : Option ScopeId := none
  /-- The local variables. -/
  locals : List Local := []
  /-- The slots of the local variables by name and scope. -/
  slots : Table LocalKey Nat := .empty
  /-- The variables that it closes over. -/
  freeVars : List Var := []
  /-- The function around it. -/
  enclosing : Option FunctionId := none
  /-- The functions without a name directly inside it. -/
  anonymous : List FunctionId := []
  /-- The basic blocks, when it has been built. -/
  blocks : Option (List Block) := none

namespace Function

/-- The receiver of a method. -/
def receiver? (f : Function) : Option Var := f.signature.recv

/-- The receiver, if any, and the parameters. -/
def params (f : Function) : List Var := f.signature.allParams

/-- What is kept of the declaration. -/
def source? (f : Function) : Option FuncSource :=
  match f.origin with
  | .declared source => some source
  | .synthetic _ => none

/-- Why the library made the function. -/
def syntheticReason? (f : Function) : Option String :=
  match f.origin with
  | .declared _ => none
  | .synthetic reason => some reason

/-- The slot of the variable declared under `name` in exactly the scope `scope`. -/
def slot? (f : Function) (name : String) (scope : ScopeId) : Option Nat :=
  f.slots.find? ⟨name, scope⟩

/-- Gives a variable the next slot. -/
def addLocal (f : Function) (v : LocalDecl) : Function :=
  { f with
    locals := f.locals ++ [⟨v.name, v.type, v.scope, f.locals.length, v.span⟩]
    slots := f.slots.insert ⟨v.name, v.scope⟩ f.locals.length }

/-- Gives each variable a slot, in order. -/
def addLocals (f : Function) (vars : List LocalDecl) : Function := vars.foldl addLocal f

/-- Takes over a declaration, unless the function already has one. -/
def adopt (f : Function) (source : FuncSource) : Function :=
  match f.origin with
  | .synthetic _ => { f with span := source.span, origin := .declared source }
  | .declared _ => f

/-- The name with its receiver as it is shown where execution stops. -/
def label (f : Function) : String :=
  match f.receiver? with
  | some recv => s!"({recv.type.text}).{f.name}()"
  | none => if f.name = "" then "" else s!"{f.name}()"

end Function

end TraceDebugger
