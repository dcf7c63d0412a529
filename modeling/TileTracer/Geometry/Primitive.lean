import TileTracer.Geometry.Box

namespace TileTracer

structure Hit (α : Type) where
  t : α
  /-- Where the ray leaves the primitive: `t` itself for a surface. -/
  tExit : α
  point : Vec3 α
  /-- Faces against the ray. -/
  normal : Vec3 α
  frontFace : Bool
  uv : Vec2 α
  owner : Nat
  deriving DecidableEq, Repr, Inhabited

/-- The hit at `t` with the outward normal turned against the ray. -/
@[inline] def Hit.facing {α : Type} [Scalar α] (ray : Ray α) (t tExit : α) (outward : Vec3 α)
    (uv : Vec2 α) (owner : Nat) : Hit α :=
  let front : Bool := ray.direction.dot outward < 0.0
  { t, tExit, point := ray.at t, normal := if front then outward else -outward,
    frontFace := front, uv, owner }

inductive Solid (α : Type) where
  | sphere (center : Vec3 α) (radius : α)
  | triangle (a b c : Vec3 α)
  | volume (bounds : Box α)
  deriving DecidableEq, Repr, Inhabited

structure Primitive (α : Type) where
  solid : Solid α
  owner : Nat
  deriving DecidableEq, Repr, Inhabited

namespace Solid

variable {α : Type} [Scalar α]

/-- A box around the solid; triangles are padded so that flat ones keep a thickness. -/
@[specialize] def bounds : Solid α → Box α
  | sphere center radius => .spanning (center - .splat radius) (center + .splat radius)
  | triangle a b c =>
    let pad : Vec3 α := .splat 1e-4
    .spanning ((a.lesser b).lesser c - pad) ((a.greater b).greater c + pad)
  | volume bounds => bounds

end Solid

namespace Primitive

variable {α : Type} [Scalar α]

@[inline] def bounds (p : Primitive α) : Box α := p.solid.bounds

@[inline] def centroid (p : Primitive α) : Vec3 α := p.bounds.centroid

/-- The nearer root inside the window of the quadratic for a sphere. -/
@[inline] def sphereRoot (center : Vec3 α) (radius : α) (ray : Ray α) (w : Window α) : Option α :=
  let oc := center - ray.origin
  let a := ray.direction.lengthSquared
  let h := ray.direction.dot oc
  let c := oc.lengthSquared - radius * radius
  let discriminant := h * h - a * c
  if discriminant < 0.0 then none
  else
    let root := Scalar.sqrt discriminant
    let near := (h - root) / a
    let far := (h + root) / a
    if w.surrounds near then some near
    else if w.surrounds far then some far
    else none

/-- The texture position on the unit sphere: longitude and latitude scaled to one. -/
@[inline] def sphereUV (outward : Vec3 α) : Vec2 α :=
  let theta := Scalar.acos (-outward.y)
  let phi := Scalar.atan2 (-outward.z) outward.x + Scalar.pi
  ⟨phi / ((2.0 : α) * Scalar.pi), theta / Scalar.pi⟩

@[specialize] def intersectSphere (center : Vec3 α) (radius : α) (owner : Nat) (ray : Ray α)
    (w : Window α) : Option (Hit α) :=
  (sphereRoot center radius ray w).map fun t =>
    let outward := (ray.at t - center) / radius
    .facing ray t t outward (sphereUV outward) owner

/-- Barycentric coordinates first, then the parameter; a triangle seen edge-on is not met. -/
@[specialize] def intersectTriangle (a b c : Vec3 α) (owner : Nat) (ray : Ray α) (w : Window α) :
    Option (Hit α) :=
  let edge1 := b - a
  let edge2 := c - a
  let h := ray.direction.cross edge2
  let det := edge1.dot h
  if Scalar.abs det < 1e-8 then none
  else
    let f := (1.0 : α) / det
    let s := ray.origin - a
    let u := f * s.dot h
    if !((0.0 : α) ≤ u && u ≤ (1.0 : α)) then none
    else
      let q := s.cross edge1
      let v := f * ray.direction.dot q
      if v < (0.0 : α) || (1.0 : α) < u + v then none
      else
        let t := f * edge2.dot q
        if w.surrounds t then
          some (.facing ray t t (edge1.cross edge2).normalize ⟨u, v⟩ owner)
        else none

/-- A volume is met where the ray enters its box, unless it only touches it. -/
@[specialize] def intersectVolume (bounds : Box α) (owner : Nat) (ray : Ray α) (w : Window α) :
    Option (Hit α) := do
  let inside ← bounds.intersect ray w
  if inside.upper ≤ inside.lower then none
  else some (.facing ray inside.lower inside.upper (-ray.direction.normalize) ⟨0.0, 0.0⟩ owner)

@[specialize] def intersect (p : Primitive α) (ray : Ray α) (w : Window α) : Option (Hit α) :=
  match p.solid with
  | .sphere center radius => intersectSphere center radius p.owner ray w
  | .triangle a b c => intersectTriangle a b c p.owner ray w
  | .volume bounds => intersectVolume bounds p.owner ray w

end Primitive

end TileTracer
