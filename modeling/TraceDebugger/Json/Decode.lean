import TraceDebugger.Json.Basic

/-!
# Decoding JSON values

The building blocks of the decoders of the library's own types. A decoder answers with a value of
its type or not at all.

A record is written as an object or as an array of its fields in order. An object may have entries
that are no fields, and these are not looked at, but it has no field twice; an array may stop early.

A choice between kinds is written with a tag. A tag can stand anywhere in its object, so what
stands around it is set aside until the tag is known. Whatever is set aside has to be usable in all
its parts, and is then read a little more freely (`Reading.setAside`): an alternative may also be
named by its number.
-/

namespace TraceDebugger

/-- How a value comes to a decoder. -/
inductive Reading where
  /-- Straight from the text. -/
  | direct
  /-- From what was set aside. -/
  | setAside
  deriving DecidableEq

/-- The fields of a record that are given, in order and each at most once. -/
abbrev Fields := List (String × Json)

namespace Json

/-- A truth value. -/
def bool? : Json → Option Bool
  | .bool b => some b
  | _ => none

/-- A text. -/
def string? : Json → Option String
  | .str s => some s
  | _ => none

/-- A whole number in the range of 32 bits without sign. -/
def uint32? : Json → Option UInt32
  | .int n => if 0 ≤ n ∧ n < 4294967296 then some (UInt32.ofNat n.toNat) else none
  | _ => none

/-- A whole number in the range of 64 bits without sign. -/
def uint64? : Json → Option UInt64
  | .int n => if 0 ≤ n ∧ n < 18446744073709551616 then some (UInt64.ofNat n.toNat) else none
  | _ => none

/-- A whole number in the range of 64 bits with sign. -/
def int64? : Json → Option Int64
  | .int n =>
    if -9223372036854775808 ≤ n ∧ n < 9223372036854775808 then some (Int64.ofInt n) else none
  | _ => none

/-- A number; a whole number stands for the floating-point number nearest to it. -/
def float? : Json → Option Binary64
  | .float x => some x
  | .int n => Binary64.ofNat? (n < 0) n.natAbs
  | _ => none

/-- An array of values of one kind. -/
def list? {α : Type} (decode : Json → Option α) : Json → Option (List α)
  | .arr items => items.mapM decode
  | _ => none

/-- A value or `null`. -/
def optional? {α : Type} (decode : Json → Option α) : Json → Option (Option α)
  | .null => some none
  | j => (decode j).map some

/-- An object as a table; the last entry of a key counts, but every entry has to be right. -/
def table? {α : Type} (decode : Json → Option α) : Json → Option (Table String α)
  | .obj entries => (entries.mapM fun e => (decode e.2).map (e.1, ·)).map Table.ofList
  | _ => none

/-- The fields of a record with the given names. -/
def record? (names : List String) : Json → Option Fields
  | .arr items => if items.length ≤ names.length then some (names.zip items) else none
  | .obj entries =>
    let known := entries.filter fun e => names.contains e.1
    if (known.map (·.1)).Nodup then some known else none
  | _ => none

/-- The alternative of `names` that a value names: by its text, or set aside also by its number. -/
def alternative? (reading : Reading) (names : List String) : Json → Option String
  | .str s => if s ∈ names then some s else none
  | .int n => if reading = .setAside ∧ 0 ≤ n then names[n.toNat]? else none
  | _ => none

/-- An alternative without content: its name, or an object with the name as key and `null` as
value. Set aside, the value may be an empty object too. -/
def choice? (reading : Reading) (names : List String) : Json → Option String
  | .str s => if s ∈ names then some s else none
  | .obj [(s, .null)] => if s ∈ names then some s else none
  | .obj [(s, .obj [])] => if s ∈ names ∧ reading = .setAside then some s else none
  | _ => none

/-- A tag and what is left when it is taken out: an object without its tag, or an array without
its first item. -/
def untag? (tag : String) : Json → Option (Json × Json)
  | .arr (t :: rest) => some (t, .arr rest)
  | .obj entries =>
    match entries.filter fun e => e.1 = tag with
    | [(_, t)] => some (t, .obj (entries.filter fun e => e.1 ≠ tag))
    | _ => none
  | _ => none

/-- An alternative that is named by a tag among its fields, with those fields set aside. -/
def tagged? (reading : Reading) (tag : String) (names : List String) (j : Json) :
    Option (String × Json) := do
  let (t, rest) ← untag? tag j
  if reading = .setAside ∨ rest.usable then
    some (← alternative? reading names t, rest)
  else none

/-- The alternative of `names` that a tag beside its content names, the content, and how the content
is to be read: content that comes before its tag is set aside. In an array, tag and content stand in
this order, and the tag is the name itself; in an object, the tag is a choice without content. -/
def beside? (reading : Reading) (tag content : String) (names : List String) :
    Json → Option (String × Option Json × Reading)
  | .arr [t, c] => (alternative? reading names t).map (·, some c, reading)
  | .obj entries =>
    match entries.filter fun e => e.1 = tag ∨ e.1 = content with
    | [(k, t)] => if k = tag then (choice? reading names t).map (·, none, reading) else none
    | [(k, t), (k', c)] =>
      if k = tag ∧ k' = content then (choice? reading names t).map (·, some c, reading)
      else if k = content ∧ k' = tag ∧ (reading = .setAside ∨ t.usable) then
        (choice? reading names c).map (·, some t, .setAside)
      else none
    | _ => none
  | _ => none

end Json

namespace Fields

/-- The value given for a field. -/
def get? (fields : Fields) (name : String) : Option Json :=
  (fields.find? fun e => e.1 = name).map (·.2)

/-- A field that has to be given. -/
def required {α : Type} (fields : Fields) (name : String) (decode : Json → Option α) : Option α :=
  (fields.get? name).bind decode

/-- A field with a value of its own when it is not given. -/
def withDefault {α : Type} (fields : Fields) (name : String) (default : α)
    (decode : Json → Option α) : Option α :=
  match fields.get? name with
  | none => some default
  | some j => decode j

/-- A field that may be absent or `null`. -/
def optional {α : Type} (fields : Fields) (name : String) (decode : Json → Option α) :
    Option (Option α) :=
  fields.withDefault name none (Json.optional? decode)

end Fields

end TraceDebugger
