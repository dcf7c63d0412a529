/-!
Geometry is written over a scalar type, so that one text runs at binary32 and is reasoned about
over exact numbers. Nothing is assumed of the operations; a comparison with a value that is not a
number is false.
-/

namespace TileTracer

class Scalar (α : Type) extends Add α, Sub α, Mul α, Div α, Neg α, LT α, LE α, OfScientific α where
  decidableLT : DecidableLT α
  decidableLE : DecidableLE α
  /-- An upper bound of all values, used for open windows and empty boxes. -/
  infinity : α
  pi : α
  abs : α → α
  sqrt : α → α
  acos : α → α
  atan2 : α → α → α

namespace Scalar

variable {α : Type} [Scalar α]

@[reducible, inline] instance : DecidableLT α := decidableLT
@[reducible, inline] instance : DecidableLE α := decidableLE

/-- The smaller of two values; a value that is not a number gives way to the other. -/
@[inline] def lesser (a b : α) : α :=
  if b < a then b else if a ≤ a then a else b

@[inline] def greater (a b : α) : α :=
  if a < b then b else if a ≤ a then a else b

/-- Strictly between the two infinities; not a number is not finite. -/
@[inline] def isFinite (a : α) : Bool :=
  -(infinity : α) < a && a < infinity

end Scalar

instance : Scalar Float32 where
  decidableLT := inferInstance
  decidableLE := inferInstance
  infinity := Float32.ofBits 0x7F800000
  pi := 3.14159265358979323846
  abs := Float32.abs
  sqrt := Float32.sqrt
  acos := Float32.acos
  atan2 := Float32.atan2

end TileTracer
