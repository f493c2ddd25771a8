/-!
# Binary floating-point numbers

The finite numbers of the IEEE 754 binary64 format, as a sign, a significand and an exponent. Every
operation is one rounding of an exact quotient of whole numbers (`Binary64.ofRatio?`): to the
nearest number of the format, and a quotient half-way between two of them to the one with the even
significand.
-/

namespace TraceDebugger

/-- A finite number of the binary64 format: `significand * 2 ^ exponent / 2 ^ 1074`, negative or
not. The significand of a number is below `2 ^ 53`, and at least `2 ^ 52` unless the exponent is
zero. -/
structure Binary64 where
  /-- Whether the number is negative; zero has both signs. -/
  negative : Bool
  /-- The significand. -/
  significand : Nat
  /-- The exponent, counted from that of the smallest number. -/
  exponent : Nat
  deriving DecidableEq

namespace Binary64

/-- How many times the smallest positive number goes into one. -/
def unitsPerOne : Nat := Nat.pow 2 1074

/-- The smallest significand of a number whose exponent is not zero. -/
def leadingBit : Nat := Nat.pow 2 52

/-- The whole number nearest to `num / den`, the even one of two that are equally near. -/
def roundDiv (num den : Nat) : Nat :=
  let q := num / den
  let twice := 2 * (num % den)
  if twice < den then q
  else if den < twice then q + 1
  else q + q % 2

/-- The exponent of a number whose value, in units of the smallest number, has the whole part
`units`. -/
def exponentFor (units : Nat) : Nat := units.log2 + 1 - 53

/-- The largest exponent of a finite number. -/
def maxExponent : Nat := 2045

/-- The number nearest to `num / den`; none when that is past the largest finite number. -/
def ofRatio? (negative : Bool) (num den : Nat) : Option Binary64 :=
  let units := num * unitsPerOne
  let e := exponentFor (units / den)
  let m := roundDiv units (den * Nat.pow 2 e)
  let x : Binary64 := if m = 2 * leadingBit then ⟨negative, leadingBit, e + 1⟩ else ⟨negative, m, e⟩
  if x.exponent ≤ maxExponent then some x else none

/-- Zero of either sign. -/
def zero (negative : Bool) : Binary64 := ⟨negative, 0, 0⟩

/-- The magnitude in units of the smallest number. -/
def units (x : Binary64) : Nat := x.significand * Nat.pow 2 x.exponent

/-- The number nearest to a whole number; none when that is past the largest finite number. -/
def ofNat? (negative : Bool) (n : Nat) : Option Binary64 := ofRatio? negative n 1

/-- The product of two magnitudes, with the sign of the first. -/
def mul? (x y : Binary64) : Option Binary64 :=
  ofRatio? x.negative (x.units * y.units) (unitsPerOne * unitsPerOne)

/-- The quotient of two magnitudes, with the sign of the first. -/
def div? (x y : Binary64) : Option Binary64 :=
  ofRatio? x.negative x.units y.units

end Binary64

end TraceDebugger
