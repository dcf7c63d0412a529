import TileTracer.Geometry.Vector

namespace TileTracer

/-- A half line; the direction need not have length one. -/
structure Ray (α : Type) where
  origin : Vec3 α
  direction : Vec3 α
  deriving DecidableEq, Repr, Inhabited

@[inline] def Ray.at {α : Type} [Scalar α] (ray : Ray α) (t : α) : Vec3 α :=
  ray.origin + t * ray.direction

structure Window (α : Type) where
  lower : α
  upper : α
  deriving DecidableEq, Repr, Inhabited

namespace Window

variable {α : Type} [Scalar α]

@[inline] def startingAt (start : α) : Window α := ⟨start, Scalar.infinity⟩

def empty : Window α := ⟨Scalar.infinity, -Scalar.infinity⟩

/-- Strictly inside the window. -/
@[inline] def surrounds (w : Window α) (t : α) : Bool :=
  w.lower < t && t < w.upper

@[inline] def upTo (w : Window α) (limit : α) : Window α :=
  ⟨w.lower, Scalar.lesser w.upper limit⟩

end Window

end TileTracer
