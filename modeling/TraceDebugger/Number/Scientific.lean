import TraceDebugger.Number.Binary64

/-!
# Numbers from decimal notation

The number that a significand and a power of ten stand for. The significand is rounded first and
then multiplied or divided by the rounded power of ten, at most `10 ^ 308` at a time, so a result
may differ in its last bit from the nearest number.
-/

namespace TraceDebugger.Binary64

/-- `x * 10 ^ exponent`, step by step; none when a step leaves the finite numbers. -/
def scale? (x : Binary64) (exponent : Int) : Option Binary64 :=
  if exponent.natAbs ≤ 308 then do
    let power ← ofNat? false (Nat.pow 10 exponent.natAbs)
    if 0 ≤ exponent then x.mul? power else x.div? power
  else if x.significand = 0 then some x
  else if 0 ≤ exponent then none
  else do
    let power ← ofNat? false (Nat.pow 10 308)
    scale? (← x.div? power) (exponent + 308)
termination_by exponent.natAbs
decreasing_by omega

/-- The number written as `significand * 10 ^ exponent`; none when it is not finite. -/
def ofScientific? (negative : Bool) (significand : Nat) (exponent : Int) : Option Binary64 := do
  scale? (← ofNat? negative significand) exponent

end TraceDebugger.Binary64
