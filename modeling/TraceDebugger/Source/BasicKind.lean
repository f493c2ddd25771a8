/-!
# Basic types

The types that a program has without declaring them, and the types of untyped constants.
-/

namespace TraceDebugger

/-- A predeclared type. -/
inductive BasicKind where
  | bool | int | int8 | int16 | int32 | int64
  | uint | uint8 | uint16 | uint32 | uint64 | uintptr
  | float32 | float64 | complex64 | complex128
  | string | rawPointer
  | untypedBool | untypedInt | untypedRune | untypedFloat | untypedComplex | untypedString
  | untypedNil
  deriving DecidableEq

namespace BasicKind

/-- All basic types, in the order of their numbers in documents. -/
def all : List BasicKind :=
  [.bool, .int, .int8, .int16, .int32, .int64, .uint, .uint8, .uint16, .uint32, .uint64, .uintptr,
    .float32, .float64, .complex64, .complex128, .string, .rawPointer, .untypedBool, .untypedInt,
    .untypedRune, .untypedFloat, .untypedComplex, .untypedString, .untypedNil]

/-- The name in documents. -/
def tag : BasicKind → String
  | .bool => "bool"
  | .int => "int"
  | .int8 => "int8"
  | .int16 => "int16"
  | .int32 => "int32"
  | .int64 => "int64"
  | .uint => "uint"
  | .uint8 => "uint8"
  | .uint16 => "uint16"
  | .uint32 => "uint32"
  | .uint64 => "uint64"
  | .uintptr => "uintptr"
  | .float32 => "float32"
  | .float64 => "float64"
  | .complex64 => "complex64"
  | .complex128 => "complex128"
  | .string => "string"
  | .rawPointer => "unsafe_pointer"
  | .untypedBool => "untyped_bool"
  | .untypedInt => "untyped_int"
  | .untypedRune => "untyped_rune"
  | .untypedFloat => "untyped_float"
  | .untypedComplex => "untyped_complex"
  | .untypedString => "untyped_string"
  | .untypedNil => "untyped_nil"

/-- The name in source text and messages. -/
def text : BasicKind → String
  | .rawPointer => "unsafe.Pointer"
  | .untypedBool => "untyped bool"
  | .untypedInt => "untyped integer"
  | .untypedRune => "untyped rune"
  | .untypedFloat => "untyped float"
  | .untypedComplex => "untyped complex"
  | .untypedString => "untyped string"
  | .untypedNil => "untyped nil"
  | kind => kind.tag

/-- The basic type of a name in documents. -/
def ofTag? (s : String) : Option BasicKind := all.find? fun kind => kind.tag = s

theorem mem_all (kind : BasicKind) : kind ∈ all := by cases kind <;> decide

end BasicKind

end TraceDebugger
