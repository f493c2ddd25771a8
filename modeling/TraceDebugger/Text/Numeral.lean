/-!
# Whole numbers in commands

A whole number is one or more of the digits 0 to 9 after an optional sign, and has to lie in the
range that its place of use admits.
-/

namespace TraceDebugger.Text

/-- The value of a digit. -/
def digit? (c : Char) : Option Nat :=
  if c.isDigit then some (c.toNat - '0'.toNat) else none

/-- The number whose digits, after those of `acc`, are the given ones. -/
def readDigits? (acc : Nat) : List Char → Option Nat
  | [] => some acc
  | c :: cs => do readDigits? (10 * acc + (← digit? c)) cs

/-- The number written with at least one digit and nothing else. -/
def readNat? : List Char → Option Nat
  | [] => none
  | cs => readDigits? 0 cs

/-- A whole number with an optional sign, from `lo` to `hi`. -/
def readInt? (lo hi : Int) (s : String) : Option Int := do
  let n ← match s.toList with
    | '-' :: cs => (readNat? cs).map fun n => -(n : Int)
    | '+' :: cs => (readNat? cs).map Int.ofNat
    | cs => (readNat? cs).map Int.ofNat
  if lo ≤ n ∧ n ≤ hi then some n else none

/-- A whole number that takes no minus sign, up to `hi`. -/
def readBounded? (hi : Nat) (s : String) : Option Nat := do
  let n ← match s.toList with
    | '+' :: cs => readNat? cs
    | cs => readNat? cs
  if n ≤ hi then some n else none

end TraceDebugger.Text
