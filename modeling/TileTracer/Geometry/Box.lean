import TileTracer.Geometry.Ray
import TileTracer.Geometry.Transform

namespace TileTracer

structure Box (α : Type) where
  low : Vec3 α
  high : Vec3 α
  deriving DecidableEq, Repr, Inhabited

namespace Box

variable {α : Type} [Scalar α]

def empty : Box α := ⟨.splat Scalar.infinity, .splat (-Scalar.infinity)⟩

/-- The box spanned by two opposite corners, in any order. -/
@[inline] def spanning (a b : Vec3 α) : Box α := ⟨a.lesser b, a.greater b⟩

@[inline] def join (a b : Box α) : Box α := ⟨a.low.lesser b.low, a.high.greater b.high⟩

@[inline] def grow (box : Box α) (p : Vec3 α) : Box α := ⟨box.low.lesser p, box.high.greater p⟩

def isEmpty (box : Box α) : Bool :=
  box.high.x < box.low.x || box.high.y < box.low.y || box.high.z < box.low.z

def isFinite (box : Box α) : Bool :=
  box.low.isFinite && box.high.isFinite

@[inline] def centroid (box : Box α) : Vec3 α :=
  (box.low + box.high) * (0.5 : α)

/-- The axis of greatest extent; a tie goes to the later axis. -/
def longestAxis (box : Box α) : Axis :=
  let size := box.high - box.low
  if size.y < size.x && size.z < size.x then .x
  else if size.z < size.y then .y
  else .z

/-- The part of a window in which the ray lies between the two planes of one axis. -/
@[inline] def clip (box : Box α) (ray : Ray α) (axis : Axis) (w : Window α) : Option (Window α) :=
  let inverse := (1.0 : α) / ray.direction.along axis
  let a := (box.low.along axis - ray.origin.along axis) * inverse
  let b := (box.high.along axis - ray.origin.along axis) * inverse
  let (near, far) := if inverse < 0.0 then (b, a) else (a, b)
  let lower := Scalar.greater near w.lower
  let upper := Scalar.lesser far w.upper
  if upper < lower then none else some ⟨lower, upper⟩

/-- The part of a window in which the ray is inside the box. -/
@[specialize] def intersect (box : Box α) (ray : Ray α) (w : Window α) : Option (Window α) := do
  let w ← box.clip ray .x w
  let w ← box.clip ray .y w
  box.clip ray .z w

@[inline] def meets (box : Box α) (ray : Ray α) (w : Window α) : Bool :=
  (box.intersect ray w).isSome

/-- The eight corners, the first coordinate changing fastest. -/
def corners (box : Box α) : List (Vec3 α) :=
  [box.low.z, box.high.z].flatMap fun z =>
    [box.low.y, box.high.y].flatMap fun y =>
      [box.low.x, box.high.x].map fun x => ⟨x, y, z⟩

/-- The smallest box around the images of the corners. -/
def transformed (box : Box α) (m : Transform α) : Box α :=
  box.corners.foldl (fun acc p => acc.grow (m.apply p)) empty

end Box

end TileTracer
