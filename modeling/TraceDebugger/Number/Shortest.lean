import TraceDebugger.Number.Binary64

/-!
# The shortest decimal of a number

Of the decimals that read back as a given number, the shortest one has the fewest digits, and is
the nearest to the number among those with as few. A decimal reads back when it lies between the
midpoints to the neighbouring numbers; the midpoints themselves belong to a number with an even
significand.
-/

namespace TraceDebugger

/-- The decimal `digits * 10 ^ exponent`. -/
structure Decimal where
  /-- The digits, read as a whole number. -/
  digits : Nat
  /-- The power of ten. -/
  exponent : Int

namespace Decimal

/-- Takes zeros off the end of the digits, at most `fuel` of them. -/
def strip : Nat → Decimal → Decimal
  | 0, d => d
  | fuel + 1, d => if d.digits % 10 = 0 then strip fuel ⟨d.digits / 10, d.exponent + 1⟩ else d

/-- The digits as text. -/
def digitChars (d : Decimal) : List Char := Nat.toDigits 10 d.digits

/-- Positional notation, without a point when there are no decimal places. -/
def positional (d : Decimal) : String :=
  let cs := d.digitChars
  let places := (-d.exponent).toNat
  if places = 0 then
    String.ofList (cs ++ List.replicate d.exponent.toNat '0')
  else if places < cs.length then
    String.ofList (cs.take (cs.length - places) ++ '.' :: cs.drop (cs.length - places))
  else
    String.ofList ('0' :: '.' :: (List.replicate (places - cs.length) '0' ++ cs))

end Decimal

namespace Binary64

/-- Whether `p * scale` lies between the midpoints to the neighbours of `x`, all magnitudes in
quarters of the unit of `x` times `factor`. -/
def readsBack (x : Binary64) (factor scale p : Nat) : Bool :=
  let below := if x.significand = leadingBit ∧ 0 < x.exponent then 1 else 2
  let lo := (4 * x.significand - below) * Nat.pow 2 x.exponent * factor
  let hi := (4 * x.significand + 2) * Nat.pow 2 x.exponent * factor
  if x.significand % 2 = 0 then lo ≤ p * scale && p * scale ≤ hi
  else lo < p * scale && p * scale < hi

/-- The decimal with the power of ten `k` that reads back as `x` and is nearest to it; of two that
are equally near, the larger. -/
def onGrid? (x : Binary64) (k : Int) : Option Decimal :=
  let factor := Nat.pow 10 (-k).toNat
  let scale := 4 * unitsPerOne * Nat.pow 10 k.toNat
  let value := 4 * x.units * factor
  let p := value / scale
  let low := x.readsBack factor scale p
  let high := x.readsBack factor scale (p + 1)
  if low && (!high || value - p * scale < (p + 1) * scale - value) then some ⟨p, k⟩
  else if high then some ⟨p + 1, k⟩
  else none

/-- The power of ten of the leading digit of `x`. -/
def leadingExponent (x : Binary64) : Int :=
  (Nat.toDigits 10 (x.units * Nat.pow 10 324 / unitsPerOne)).length - 325

/-- The shortest decimal that reads back as the magnitude of `x`; seventeen digits are always
enough. -/
def shortest (x : Binary64) : Decimal :=
  if x.significand = 0 then ⟨0, 0⟩ else
  match (List.range 17).findSome? fun (n : Nat) => x.onGrid? (x.leadingExponent - n) with
  | some d => d.strip 17
  | none => ⟨0, 0⟩

/-- The text of a number: its shortest decimal in positional notation. -/
def text (x : Binary64) : String :=
  (if x.negative then "-" else "") ++ x.shortest.positional

end Binary64

end TraceDebugger
