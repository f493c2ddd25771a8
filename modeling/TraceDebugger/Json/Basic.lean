import TraceDebugger.Data.Table
import TraceDebugger.Number.Binary64

/-!
# JSON values

A value as its text gives it: whole numbers are told from floating-point numbers, and the entries
of an object stand in the order of the text, repeated keys included. A value may be well formed and
still be nothing that a document can hold (`Json.unusable`): a text with half of a surrogate pair,
a number past the largest finite one, or an array or object too deep. Such a value does no harm
where a document has something that nobody asks for, and is an error elsewhere.
-/

namespace TraceDebugger

/-- A JSON value. -/
inductive Json where
  /-- The value `null`. -/
  | null
  /-- A truth value. -/
  | bool (value : Bool)
  /-- A whole number from `-2 ^ 63` to `2 ^ 64 - 1`. -/
  | int (value : Int)
  /-- Any other number. -/
  | float (value : Binary64)
  /-- A text. -/
  | str (value : String)
  /-- An array. -/
  | arr (items : List Json)
  /-- An object, with its entries in the order of the text. -/
  | obj (entries : List (String × Json))
  /-- A well-formed value that no document can hold. -/
  | unusable

instance : Inhabited Json := ⟨.null⟩

namespace Json

/-- The number of levels of arrays and objects that a document may have. -/
def maxDepth : Nat := 127

mutual

/-- Whether every part of a value can be held. -/
def usable : Json → Bool
  | .unusable => false
  | .arr items => usableItems items
  | .obj entries => usableEntries entries
  | _ => true

/-- Whether every part of every item can be held. -/
def usableItems : List Json → Bool
  | [] => true
  | j :: rest => j.usable && usableItems rest

/-- Whether every part of every entry can be held. -/
def usableEntries : List (String × Json) → Bool
  | [] => true
  | (_, j) :: rest => j.usable && usableEntries rest

end

mutual

/-- The number of levels of arrays and objects in a value. -/
def depth : Json → Nat
  | .arr items => depthItems items + 1
  | .obj entries => depthEntries entries + 1
  | _ => 0

/-- The number of levels in the deepest item. -/
def depthItems : List Json → Nat
  | [] => 0
  | j :: rest => max j.depth (depthItems rest)

/-- The number of levels in the deepest entry. -/
def depthEntries : List (String × Json) → Nat
  | [] => 0
  | (_, j) :: rest => max j.depth (depthEntries rest)

end

mutual

/-- The value down to a number of levels, with every array and object below them unusable. -/
def limited (levels : Nat) : Json → Json
  | .arr items => if levels = 0 then .unusable else .arr (limitedItems (levels - 1) items)
  | .obj entries => if levels = 0 then .unusable else .obj (limitedEntries (levels - 1) entries)
  | j => j

/-- The items, each down to a number of levels. -/
def limitedItems (levels : Nat) : List Json → List Json
  | [] => []
  | j :: rest => j.limited levels :: limitedItems levels rest

/-- The entries, each down to a number of levels. -/
def limitedEntries (levels : Nat) : List (String × Json) → List (String × Json)
  | [] => []
  | (k, j) :: rest => (k, j.limited levels) :: limitedEntries levels rest

end

/-- The value as a document holds it. -/
def asDocument (j : Json) : Json := j.limited maxDepth

mutual

/-- Whether a value has no floating-point number in it. -/
def floatFree : Json → Bool
  | .float _ => false
  | .arr items => floatFreeItems items
  | .obj entries => floatFreeEntries entries
  | _ => true

/-- Whether no item has a floating-point number in it. -/
def floatFreeItems : List Json → Bool
  | [] => true
  | j :: rest => j.floatFree && floatFreeItems rest

/-- Whether no entry has a floating-point number in it. -/
def floatFreeEntries : List (String × Json) → Bool
  | [] => true
  | (_, j) :: rest => j.floatFree && floatFreeEntries rest

end

mutual

/-- The value with the entries of every object in the order of their keys, of equal keys only the
last one. -/
def canonical : Json → Json
  | .arr items => .arr (canonicalItems items)
  | .obj entries => .obj (Table.ofList (canonicalEntries entries)).entries
  | j => j

/-- The items, each in canonical form. -/
def canonicalItems : List Json → List Json
  | [] => []
  | j :: rest => j.canonical :: canonicalItems rest

/-- The entries in the order given, each in canonical form. -/
def canonicalEntries : List (String × Json) → List (String × Json)
  | [] => []
  | (k, j) :: rest => (k, j.canonical) :: canonicalEntries rest

end

end Json

end TraceDebugger
