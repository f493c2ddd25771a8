import TraceDebugger.Json.Numeral

/-!
# Reading JSON

The reader takes a whole text to the value that it writes (`Json.readDeep?`), and has no answer for
a text that is not JSON: between values stand only blanks, tabs and line ends, no comma ends a list,
and a text between quotes has no bare control characters. A text may be read as a document
(`Json.read?`), whose levels are limited.
-/

namespace TraceDebugger.Json

/-- A blank, a tab or a line end. -/
def isSpace (c : Char) : Bool := c = ' ' || c = '\n' || c = '\t' || c = '\r'

/-- The text from its first character that is no space. -/
def skipSpace : List Char → List Char
  | [] => []
  | c :: cs => if isSpace c then skipSpace cs else c :: cs

/-- The value of a hexadecimal digit. -/
def hexDigit? (c : Char) : Option Nat :=
  if c.isDigit then some (c.toNat - '0'.toNat)
  else if 'a' ≤ c ∧ c ≤ 'f' then some (c.toNat - 'a'.toNat + 10)
  else if 'A' ≤ c ∧ c ≤ 'F' then some (c.toNat - 'A'.toNat + 10)
  else none

/-- The number that four hexadecimal digits write. -/
def hexUnit? (a b c d : Char) : Option Nat := do
  some (((← hexDigit? a) * 16 + (← hexDigit? b)) * 256 + (← hexDigit? c) * 16 + (← hexDigit? d))

/-- Whether a unit is the first half of a surrogate pair. -/
def isHighSurrogate (n : Nat) : Bool := 0xd800 ≤ n && n < 0xdc00

/-- Whether a unit is the second half of a surrogate pair. -/
def isLowSurrogate (n : Nat) : Bool := 0xdc00 ≤ n && n < 0xe000

/-- The character of a surrogate pair. -/
def pairChar (high low : Nat) : Char :=
  Char.ofNat (0x10000 + (high - 0xd800) * 0x400 + (low - 0xdc00))

/-- What a backslash and the next character stand for, where that is one character. -/
def plainEscape? (c : Char) : Option Char :=
  if c = '"' ∨ c = '\\' ∨ c = '/' then some c
  else if c = 'b' then some '\x08'
  else if c = 'f' then some '\x0c'
  else if c = 'n' then some '\n'
  else if c = 'r' then some '\r'
  else if c = 't' then some '\t'
  else none

/-- A part of a text between quotes. -/
inductive Piece where
  /-- A character, bare or after a backslash. -/
  | char (c : Char)
  /-- A unit written by its code: a character, or half of a surrogate pair. -/
  | unit (code : Nat)

/-- The pieces up to the closing quote, and the rest after it. -/
def pieces? : List Char → Option (List Piece × List Char)
  | [] => none
  | '"' :: cs => some ([], cs)
  | '\\' :: 'u' :: a :: b :: c :: d :: cs => do
    let code ← hexUnit? a b c d
    let (body, rest) ← pieces? cs
    some (.unit code :: body, rest)
  | '\\' :: c :: cs => do
    let c ← plainEscape? c
    let (body, rest) ← pieces? cs
    some (.char c :: body, rest)
  | c :: cs =>
    if c.toNat < 0x20 then none else do
    let (body, rest) ← pieces? cs
    some (.char c :: body, rest)

/-- The characters of pieces; none if there is half of a surrogate pair without the other. -/
def assemble? : List Piece → Option (List Char)
  | [] => some []
  | .char c :: ps => (assemble? ps).map (c :: ·)
  | .unit high :: .unit low :: ps =>
    if isHighSurrogate high then
      if isLowSurrogate low then (assemble? ps).map (pairChar high low :: ·) else none
    else if isLowSurrogate high then none
    else (assemble? (.unit low :: ps)).map (Char.ofNat high :: ·)
  | .unit code :: ps =>
    if isHighSurrogate code || isLowSurrogate code then none
    else (assemble? ps).map (Char.ofNat code :: ·)

/-- The text up to the closing quote, and the rest after it. There is no text, but a rest, where a
surrogate pair is not whole. -/
def textBody? (cs : List Char) : Option (Option (List Char) × List Char) :=
  (pieces? cs).map fun p => (assemble? p.1, p.2)

mutual

/-- The value at the start of a text, and the rest of the text. -/
def value? : Nat → List Char → Option (Json × List Char)
  | 0, _ => none
  | fuel + 1, cs =>
    match skipSpace cs with
    | [] => none
    | 'n' :: 'u' :: 'l' :: 'l' :: cs => some (.null, cs)
    | 't' :: 'r' :: 'u' :: 'e' :: cs => some (.bool true, cs)
    | 'f' :: 'a' :: 'l' :: 's' :: 'e' :: cs => some (.bool false, cs)
    | '"' :: cs => do
      let (body, rest) ← textBody? cs
      some ((body.map fun cs => .str (String.ofList cs)).getD .unusable, rest)
    | '[' :: cs =>
      match skipSpace cs with
      | ']' :: cs => some (.arr [], cs)
      | cs => do
        let (items, rest) ← items? fuel cs
        some (.arr items, rest)
    | '\x7b' :: cs =>
      match skipSpace cs with
      | '\x7d' :: cs => some (.obj [], cs)
      | cs => do
        let (entries, rest) ← entries? fuel cs
        some ((entries.map .obj).getD .unusable, rest)
    | cs => do
      let (n, rest) ← Numeral.read? cs
      some (n.value, rest)

/-- The items of an array up to its closing bracket, at least one, and the rest after it. -/
def items? : Nat → List Char → Option (List Json × List Char)
  | 0, _ => none
  | fuel + 1, cs => do
    let (item, cs) ← value? fuel cs
    match skipSpace cs with
    | ',' :: cs => do
      let (items, rest) ← items? fuel cs
      some (item :: items, rest)
    | ']' :: cs => some ([item], cs)
    | _ => none

/-- The entries of an object up to its closing brace, at least one, and the rest after it. An
unusable key makes all of them unusable. -/
def entries? : Nat → List Char → Option (Option (List (String × Json)) × List Char)
  | 0, _ => none
  | fuel + 1, cs =>
    match skipSpace cs with
    | '"' :: cs => do
      let (key, cs) ← textBody? cs
      match skipSpace cs with
      | ':' :: cs => do
        let (value, cs) ← value? fuel cs
        let entry := key.map fun cs => (String.ofList cs, value)
        match skipSpace cs with
        | ',' :: cs => do
          let (entries, rest) ← entries? fuel cs
          some (entry.bind fun e => entries.map (e :: ·), rest)
        | '\x7d' :: cs => some (entry.map ([·]), cs)
        | _ => none
      | _ => none
    | _ => none

end

/-- The value of any depth that a text writes, if it is JSON. Every step of the reading takes a
character, or is followed by one that does. -/
def readChars? (cs : List Char) : Option Json := do
  let (j, rest) ← value? (2 * cs.length + 2) cs
  if (skipSpace rest).isEmpty then some j else none

/-- The value of any depth that a text writes, if it is JSON. -/
def readDeep? (text : String) : Option Json := readChars? text.toList

/-- The document that a text writes, if it is JSON. -/
def read? (text : String) : Option Json := (readDeep? text).map asDocument

end TraceDebugger.Json
