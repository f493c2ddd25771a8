import TraceDebugger.Data.Order
import TraceDebugger.Source.Position

/-!
# Identifiers

The numbers by which a compilation unit refers to its objects and scopes, and identifiers in its
source text with what they were resolved to.
-/

namespace TraceDebugger

/-- The number of an object in the table of its unit. -/
structure ObjectId where
  /-- The number. -/
  index : UInt32
  deriving DecidableEq

namespace ObjectId

instance : Ord ObjectId := ⟨compareOn index⟩

instance : Std.TransOrd ObjectId := inferInstanceAs (Std.TransCmp (compareOn index))

instance : Std.LawfulEqOrd ObjectId :=
  lawfulEqCmp_compareOn fun ⟨_⟩ ⟨_⟩ h => congrArg mk h

/-- Reads an object number. -/
def decode? (j : Json) : Option ObjectId := j.uint32?.map (⟨·⟩)

/-- Writes an object number. -/
def encode (id : ObjectId) : Json := .int id.index.toNat

end ObjectId

/-- The number of a scope in the table of its unit. -/
structure SourceScopeId where
  /-- The number. -/
  index : UInt32
  deriving DecidableEq

namespace SourceScopeId

/-- The scope of the whole package. -/
def package : SourceScopeId := ⟨0⟩

instance : Ord SourceScopeId := ⟨compareOn index⟩

instance : Std.TransOrd SourceScopeId := inferInstanceAs (Std.TransCmp (compareOn index))

instance : Std.LawfulEqOrd SourceScopeId :=
  lawfulEqCmp_compareOn fun ⟨_⟩ ⟨_⟩ h => congrArg mk h

/-- Reads a scope number. -/
def decode? (j : Json) : Option SourceScopeId := j.uint32?.map (⟨·⟩)

/-- Writes a scope number. -/
def encode (id : SourceScopeId) : Json := .int id.index.toNat

end SourceScopeId

/-- An identifier in source text. -/
structure Ident where
  /-- The name. -/
  name : String
  /-- The object that the type checker resolved it to. -/
  object : Option ObjectId := none
  /-- Where it stands. -/
  pos : Option Position := none

namespace Ident

/-- Whether the identifier is the one that declares nothing. -/
def isBlank (i : Ident) : Bool := i.name = "_"

/-- Reads an identifier. -/
def decode? (j : Json) : Option Ident := do
  let fields ← j.record? ["name", "object", "pos"]
  some {
    name := ← fields.required "name" Json.string?
    object := ← fields.optional "object" ObjectId.decode?
    pos := ← fields.optional "pos" Position.decode? }

/-- Writes an identifier. -/
def encode (i : Ident) : Json :=
  .obj [("name", .str i.name), ("object", i.object.elim .null ObjectId.encode),
    ("pos", i.pos.elim .null Position.encode)]

end Ident

end TraceDebugger
