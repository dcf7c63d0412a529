import TileTracer.Geometry.Primitive
import TileTracer.Numeric.Binary32
import TileTracer.Random.Direction

namespace TileTracer

open TileTracer.Random (Stream)

/-- A scattered path: what its light is multiplied by and where it goes on. -/
structure Scatter where
  attenuation : Color
  direction : Vec3 Float32
  deriving DecidableEq, Repr

inductive Material where
  /-- Ideal diffuse reflection. -/
  | lambertian (color : Color)
  /-- Specular reflection, perturbed by a ball of the given radius. -/
  | metal (color : Color) (roughness : Float32)
  /-- A clear dielectric with its index of refraction. -/
  | glass (eta : Float32)
  /-- A light that absorbs what meets it and shines from its front. -/
  | luminous (color : Color) (intensity : Float32)
  deriving DecidableEq, Repr

def reflect (v n : Vec3 Float32) : Vec3 Float32 :=
  v - 2.0 * v.dot n * n

/-- The refracted direction of a unit vector, for the ratio of the two indices. -/
def refract (unit n : Vec3 Float32) (ratio : Float32) : Vec3 Float32 :=
  let cosine := Scalar.lesser ((-unit).dot n) 1.0
  let perpendicular := ratio * (unit + cosine * n)
  let parallel := -(1.0 - perpendicular.lengthSquared).abs.sqrt * n
  perpendicular + parallel

/-- Schlick's approximation of the reflected share. -/
def reflectance (cosine eta : Float32) : Float32 :=
  let r := (1.0 - eta) / (1.0 + eta)
  let r0 := r * r
  let c := 1.0 - cosine
  r0 + (1.0 - r0) * (c * ((c * c) * (c * c)))

namespace Material

def typeName : Material → String
  | lambertian _ => "lambertian"
  | metal _ _ => "metal"
  | glass _ => "glass"
  | luminous _ _ => "luminous"

def albedo : Material → Color
  | lambertian color => color
  | metal color _ => color
  | glass _ => .one
  | luminous color _ => color

def emitted (m : Material) (hit : Hit Float32) : Color :=
  match m with
  | luminous color intensity => if hit.frontFace then color * intensity else .zero
  | _ => .zero

def scatterDiffuse (color : Color) (hit : Hit Float32) (rng : Stream) : Scatter × Stream :=
  let (v, rng) := Random.unitVector rng
  let direction := hit.normal + v
  let direction := if direction.lengthSquared < 1e-8 then hit.normal else direction
  (⟨color, direction⟩, rng)

def scatterMetal (color : Color) (roughness : Float32) (incoming : Ray Float32)
    (hit : Hit Float32) (rng : Stream) : Option Scatter × Stream :=
  let (v, rng) := Random.unitVector rng
  let direction := reflect incoming.direction.normalize hit.normal + roughness * v
  if direction.dot hit.normal ≤ 0.0 then (none, rng) else (some ⟨color, direction⟩, rng)

/-- Total reflection needs no random number; otherwise one decides between the two directions. -/
def scatterGlass (eta : Float32) (incoming : Ray Float32) (hit : Hit Float32) (rng : Stream) :
    Scatter × Stream :=
  let ratio := if hit.frontFace then 1.0 / eta else eta
  let unit := incoming.direction.normalize
  let cosine := Scalar.lesser ((-unit).dot hit.normal) 1.0
  let sine := (1.0 - cosine * cosine).sqrt
  if 1.0 < ratio * sine then (⟨.one, reflect unit hit.normal⟩, rng)
  else
    let (u, rng) := rng.unit
    if u < reflectance cosine ratio then (⟨.one, reflect unit hit.normal⟩, rng)
    else (⟨.one, refract unit hit.normal ratio⟩, rng)

/-- The path that goes on from a hit; `none` when the light is absorbed. -/
def scatter (m : Material) (incoming : Ray Float32) (hit : Hit Float32) (rng : Stream) :
    Option Scatter × Stream :=
  match m with
  | lambertian color =>
    let (s, rng) := scatterDiffuse color hit rng
    (some s, rng)
  | metal color roughness => scatterMetal color roughness incoming hit rng
  | glass eta =>
    let (s, rng) := scatterGlass eta incoming hit rng
    (some s, rng)
  | luminous _ _ => (none, rng)

end Material

end TileTracer
