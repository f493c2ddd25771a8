import TraceDebugger.Source.Object

/-!
# Values

The values of a running program as the interpreter reports them.
-/

namespace TraceDebugger

/-- A value of a running program. -/
inductive Value where
  /-- The value that points nowhere. -/
  | nil
  /-- A truth value. -/
  | bool (value : Bool)
  /-- A whole number. -/
  | int (value : Int64)
  /-- A floating-point number. -/
  | float (value : Binary64)
  /-- A text. -/
  | string (value : String)
  /-- A pointer, by what it points to. -/
  | pointer (target : Value)
  /-- Several values at once. -/
  | tuple (items : List Value)
  /-- A slice. -/
  | slice (items : List Value)
  /-- A value that is known by its text only. -/
  | other (text : String)

namespace Value

/-- What a pointer points to; any other value itself. -/
def deref : Value → Value
  | .pointer target => target
  | v => v

/-- The value of a constant. -/
def ofConstant : Constant → Value
  | .bool b => .bool b
  | .int n => .int n
  | .float x => .float x
  | .string s => .string s

mutual

/-- The value as text. -/
def text : Value → String
  | .nil => "nil"
  | .bool b => Text.ofBool b
  | .int n => toString n.toInt
  | .float x => x.text
  | .string s => Text.quoted s
  | .pointer target => "&" ++ target.text
  | .tuple items => "(" ++ Text.joinWith ", " (texts items) ++ ")"
  | .slice items => "[" ++ Text.joinWith " " (texts items) ++ "]"
  | .other s => s

/-- The texts of values. -/
def texts : List Value → List String
  | [] => []
  | v :: vs => v.text :: texts vs

end

/-- The tags of values, in the order of their numbers. -/
def tags : List String :=
  ["nil", "bool", "int", "float", "string", "pointer", "tuple", "slice", "opaque"]

/-- Reads a value of at most the given nesting. The content of `nil` may be left out. -/
def read? : Nat → Reading → Json → Option Value
  | 0, _, _ => none
  | fuel + 1, reading, j => do
    let (tag, content, inner) ← j.beside? reading "kind" "value" tags
    match tag, content with
    | "nil", none => some .nil
    | "nil", some .null => some .nil
    | "bool", some c => c.bool?.map .bool
    | "int", some c => c.int64?.map .int
    | "float", some c => c.float?.map .float
    | "string", some c => c.string?.map .string
    | "pointer", some c => (read? fuel inner c).map .pointer
    | "tuple", some c => (c.list? (read? fuel inner)).map .tuple
    | "slice", some c => (c.list? (read? fuel inner)).map .slice
    | "opaque", some c => c.string?.map .other
    | _, _ => none

/-- Reads a value. -/
def decode? (reading : Reading) (j : Json) : Option Value := read? (j.depth + 1) reading j

mutual

/-- Writes a value. -/
def encode : Value → Json
  | .nil => .obj [("kind", .str "nil")]
  | .bool b => .obj [("kind", .str "bool"), ("value", .bool b)]
  | .int n => .obj [("kind", .str "int"), ("value", .int n.toInt)]
  | .float x => .obj [("kind", .str "float"), ("value", .float x)]
  | .string s => .obj [("kind", .str "string"), ("value", .str s)]
  | .pointer target => .obj [("kind", .str "pointer"), ("value", target.encode)]
  | .tuple items => .obj [("kind", .str "tuple"), ("value", .arr (encodeAll items))]
  | .slice items => .obj [("kind", .str "slice"), ("value", .arr (encodeAll items))]
  | .other s => .obj [("kind", .str "opaque"), ("value", .str s)]

/-- Writes values. -/
def encodeAll : List Value → List Json
  | [] => []
  | v :: vs => v.encode :: encodeAll vs

end

end Value

end TraceDebugger
