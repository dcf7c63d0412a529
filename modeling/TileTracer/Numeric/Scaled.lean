import TileTracer.Numeric.Nearest

/-!
The digits of a decimal, taken as a binary64 value and multiplied or divided by a power of ten in
binary64 arithmetic. Every step rounds, so the result may lie next to the nearest value.
-/

namespace TileTracer.Decimal

/-- The binary64 value nearest to a power of ten, at most `10 ^ 308`. -/
def powerOfTen (k : Nat) : Float := (Decimal.nearestDouble? ⟨1, k⟩).getD 0.0

/-- Scales a value by `10 ^ e`, by powers below `10 ^ -308` in several steps; `none` if the result
is too large. -/
def scale? (x : Float) (e : Int) : Option Float :=
  if x == 0.0 then some x
  else if 308 < e then none
  else if 0 ≤ e then
    let scaled := x * powerOfTen e.toNat
    if scaled.isInf then none else some scaled
  else if -308 ≤ e then some (x / powerOfTen (-e).toNat)
  else scale? (x / powerOfTen 308) (e + 308)
termination_by (-e).toNat

def scaled? (d : Decimal) : Option Float := scale? d.digits.toUInt64.toFloat d.exponent

end TileTracer.Decimal
