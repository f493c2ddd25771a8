import TraceDebugger.Json.Basic
import TraceDebugger.Number.Scientific
import TraceDebugger.Text.Numeral

/-!
# JSON numbers

A numeral is a sign, a whole part without leading zeros, and optional decimals and exponent. A
numeral without decimals and exponent that lies in the range of 64-bit integers is a whole number;
every other numeral is a floating-point number. Its significand takes as many digits as fit in 64
bits: whole digits after those count as powers of ten, and further decimals do not count.
-/

namespace TraceDebugger.Json

/-- The parts of a number as written. -/
structure Numeral where
  /-- Whether a minus sign is written. -/
  negative : Bool
  /-- The digits before the point. -/
  whole : List Nat
  /-- The digits after the point, if there is a point. -/
  decimals : Option (List Nat)
  /-- Whether the exponent is negative, and its digits, if there is an exponent. -/
  power : Option (Bool × List Nat)

/-- The digits at the start of a text, and the rest of it. -/
def leadingDigits : List Char → List Nat × List Char
  | [] => ([], [])
  | c :: cs =>
    match Text.digit? c with
    | some d => (d :: (leadingDigits cs).1, (leadingDigits cs).2)
    | none => ([], c :: cs)

namespace Numeral

/-- The whole part: a lone zero, or digits that begin with another one. -/
def whole? (cs : List Char) : Option (List Nat × List Char) :=
  match leadingDigits cs with
  | ([], _) => none
  | ([0], rest) => some ([0], rest)
  | (0 :: _, _) => none
  | (ds, rest) => some (ds, rest)

/-- The decimals: a point and at least one digit, or nothing. -/
def decimals? : List Char → Option (Option (List Nat) × List Char)
  | '.' :: cs =>
    match leadingDigits cs with
    | ([], _) => none
    | (ds, rest) => some (some ds, rest)
  | cs => some (none, cs)

/-- The digits of an exponent, at least one. -/
def powerDigits? (negative : Bool) (cs : List Char) :
    Option (Option (Bool × List Nat) × List Char) :=
  match leadingDigits cs with
  | ([], _) => none
  | (ds, rest) => some (some (negative, ds), rest)

/-- The exponent with its letter and sign, or nothing. -/
def power? : List Char → Option (Option (Bool × List Nat) × List Char)
  | c :: cs =>
    if c = 'e' ∨ c = 'E' then
      match cs with
      | '+' :: cs => powerDigits? false cs
      | '-' :: cs => powerDigits? true cs
      | cs => powerDigits? false cs
    else some (none, c :: cs)
  | [] => some (none, [])

/-- The numeral after its sign. -/
def unsigned? (negative : Bool) (cs : List Char) : Option (Numeral × List Char) := do
  let (whole, cs) ← whole? cs
  let (decimals, cs) ← decimals? cs
  let (power, cs) ← power? cs
  some (⟨negative, whole, decimals, power⟩, cs)

/-- The numeral at the start of a text, and the rest of it. -/
def read? : List Char → Option (Numeral × List Char)
  | '-' :: cs => unsigned? true cs
  | cs => unsigned? false cs

/-- The largest significand. -/
def maxSignificand : Nat := 18446744073709551615

/-- The largest exponent that can be written. -/
def maxPower : Nat := 2147483647

/-- Takes digits into a significand while it fits, and gives back those left over. -/
def accumulate (significand : Nat) : List Nat → Nat × List Nat
  | [] => (significand, [])
  | d :: ds =>
    if 10 * significand + d ≤ maxSignificand then accumulate (10 * significand + d) ds
    else (significand, d :: ds)

/-- The number that digits stand for. -/
def ofDigits (ds : List Nat) : Nat := ds.foldl (fun n d => 10 * n + d) 0

/-- The floating-point value of a numeral. -/
def float? (n : Numeral) : Option Binary64 :=
  let (whole, extra) := accumulate 0 n.whole
  let decimals := n.decimals.getD []
  let (significand, skipped) := accumulate whole decimals
  let exponent : Int := extra.length - (decimals.length - skipped.length)
  match n.power with
  | none => Binary64.ofScientific? n.negative significand exponent
  | some (negative, ds) =>
    if maxPower < ofDigits ds then
      if significand = 0 ∨ negative then some (.zero n.negative) else none
    else
      Binary64.ofScientific? n.negative significand
        (if negative then exponent - ofDigits ds else exponent + ofDigits ds)

/-- The largest magnitude of a negative whole number. -/
def maxNegative : Nat := 9223372036854775808

/-- The value of a numeral. Minus zero is a floating-point number. -/
def value (n : Numeral) : Json :=
  let magnitude := ofDigits n.whole
  if n.decimals.isNone ∧ n.power.isNone ∧ ¬ n.negative ∧ magnitude ≤ maxSignificand then
    .int magnitude
  else if n.decimals.isNone ∧ n.power.isNone ∧ n.negative ∧ 0 < magnitude
      ∧ magnitude ≤ maxNegative then
    .int (-magnitude)
  else
    match n.float? with
    | some x => .float x
    | none => .unusable

end Numeral

end TraceDebugger.Json
