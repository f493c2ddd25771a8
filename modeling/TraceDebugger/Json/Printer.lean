import TraceDebugger.Json.Basic
import TraceDebugger.Number.Shortest

/-!
# Printing JSON

The compact text of a value, without blanks. A floating-point number has its shortest decimal: in
positional notation from `1e-5` to below `1e16`, always with a point, and with an exponent outside
that range.
-/

namespace TraceDebugger

namespace Decimal

/-- The digits with a point after the first, when there is more than one. -/
def mantissaChars (cs : List Char) : List Char :=
  match cs with
  | [] => []
  | [c] => [c]
  | c :: cs => c :: '.' :: cs

/-- The characters of a whole number. -/
def intChars (n : Int) : List Char :=
  if n < 0 then '-' :: Nat.toDigits 10 n.natAbs else Nat.toDigits 10 n.natAbs

/-- The notation of a number in a document. -/
def documentChars (d : Decimal) : List Char :=
  let cs := d.digitChars
  let point : Int := cs.length + d.exponent
  if -5 < point ∧ point ≤ 16 then
    if 0 ≤ d.exponent then d.positional.toList ++ ['.', '0'] else d.positional.toList
  else
    mantissaChars cs ++ 'e' :: intChars (point - 1)

end Decimal

namespace Json

/-- The characters of a floating-point number. -/
def floatChars (x : Binary64) : List Char :=
  (if x.negative then ['-'] else []) ++ x.shortest.documentChars

/-- A control character by its code, in four hexadecimal digits. -/
def controlEscape (c : Char) : List Char :=
  '\\' :: 'u' :: '0' :: '0' :: (List.replicate (2 - (Nat.toDigits 16 c.toNat).length) '0'
    ++ Nat.toDigits 16 c.toNat)

/-- How a character stands inside quotes. -/
def charChars (c : Char) : List Char :=
  if c = '"' then ['\\', '"']
  else if c = '\\' then ['\\', '\\']
  else if c = '\x08' then ['\\', 'b']
  else if c = '\x0c' then ['\\', 'f']
  else if c = '\n' then ['\\', 'n']
  else if c = '\r' then ['\\', 'r']
  else if c = '\t' then ['\\', 't']
  else if c.toNat < 0x20 then controlEscape c
  else [c]

/-- A text between quotes. -/
def textChars (s : String) : List Char :=
  '"' :: (s.toList.flatMap charChars ++ ['"'])

mutual

/-- The characters of a value; an unusable one is written `null`. -/
def chars : Json → List Char
  | .null => ['n', 'u', 'l', 'l']
  | .bool true => ['t', 'r', 'u', 'e']
  | .bool false => ['f', 'a', 'l', 's', 'e']
  | .int n => Decimal.intChars n
  | .float x => floatChars x
  | .str s => textChars s
  | .arr items => '[' :: (charsItems items ++ [']'])
  | .obj entries => '\x7b' :: (charsEntries entries ++ ['\x7d'])
  | .unusable => ['n', 'u', 'l', 'l']

/-- The characters of items with commas between them. -/
def charsItems : List Json → List Char
  | [] => []
  | [j] => j.chars
  | j :: rest => j.chars ++ ',' :: charsItems rest

/-- The characters of entries with commas between them. -/
def charsEntries : List (String × Json) → List Char
  | [] => []
  | [(k, j)] => textChars k ++ ':' :: j.chars
  | (k, j) :: rest => textChars k ++ ':' :: (j.chars ++ ',' :: charsEntries rest)

end

/-- The compact text of a value. -/
def render (j : Json) : String := String.ofList j.chars

end Json

end TraceDebugger
