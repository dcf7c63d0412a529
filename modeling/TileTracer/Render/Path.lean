import TileTracer.Render.Settings
import TileTracer.Scene.World

namespace TileTracer

open TileTracer.Random (Stream)

/-- What the first segment of a path meets. -/
structure FirstHit where
  /-- Distance from the camera. -/
  depth : Float32
  albedo : Color
  normal : Vec3 Float32
  deriving DecidableEq, Repr

def FirstHit.miss : FirstHit := ⟨Scalar.infinity, .zero, .zero⟩

structure PathSample where
  radiance : Color
  /-- 1 if the first segment met something to be shown. -/
  alpha : Float32
  first : FirstHit
  deriving DecidableEq, Repr

def PathSample.none : PathSample := ⟨.zero, 0.0, .miss⟩

structure Path where
  ray : Ray Float32
  /-- The share of light found from here on that reaches the camera. -/
  throughput : Color
  sample : PathSample
  rng : Stream
  deriving DecidableEq, Repr

inductive Segment where
  | ended (path : Path)
  | onward (path : Path)
  deriving DecidableEq, Repr

/-- The sky in the direction of a ray: white below to blue above. -/
def sky (ray : Ray Float32) : Color :=
  let a := 0.5 * (ray.direction.normalize.y + 1.0)
  (Vec3.one : Color) * (1.0 - a) + (⟨0.5, 0.7, 1.0⟩ : Color) * a

/-- What surfaces without a material are made of. -/
def fallbackMaterial : Material := .lambertian (.splat 0.5)

namespace Path

def start (ray : Ray Float32) (rng : Stream) : Path := ⟨ray, .one, .none, rng⟩

def gather (p : Path) (light : Color) : Path :=
  { p with sample := { p.sample with radiance := p.sample.radiance + p.throughput * light } }

/-- Notes what the first segment meets; later segments leave it alone. -/
def note (p : Path) (isFirst : Bool) (hit : FirstHit) : Path :=
  if isFirst then { p with sample := { p.sample with alpha := 1.0, first := hit } } else p

/-- Goes on behind a scattering, unless too little light is left. -/
def continued (p : Path) (settings : Settings) (attenuation : Color)
    (ray : Path → Ray Float32 × Stream) : Segment :=
  let p := { p with throughput := p.throughput * attenuation }
  if p.throughput.largest < settings.minContribution then .ended p
  else
    let (ray, rng) := ray p
    .onward { p with ray, rng }

/-- The parameter at which a ray entering a medium scatters, for a uniform number `u`. -/
def freeFlight (ray : Ray Float32) (entry : Hit Float32) (density u : Float32) : Float32 :=
  entry.t + -(1.0 - u).log / density / ray.direction.length

/-- Tries to scatter in the nearest medium within a window. Entering one draws a number even if
nothing comes of it. -/
def mediumEvent (world : World) (ray : Ray Float32) (w : Window Float32) (rng : Stream) :
    Option (Float32 × Medium) × Stream :=
  match world.traceVolume ray w with
  | none => (none, rng)
  | some entry => match world.medium? entry.owner with
    | none => (none, rng)
    | some medium =>
      let (u, rng) := rng.unit
      let t := freeFlight ray entry medium.density u
      if 0.0 < medium.density && t < entry.tExit then (some (t, medium), rng) else (none, rng)

def scatterInMedium (settings : Settings) (isFirst : Bool) (p : Path) (t : Float32)
    (medium : Medium) : Segment :=
  let speed := p.ray.direction.length
  let p := p.note isFirst ⟨t * speed, medium.albedo, -p.ray.direction / speed⟩
  p.continued settings medium.albedo fun p =>
    let (direction, rng) := Random.unitVector p.rng
    (⟨p.ray.at t, direction⟩, rng)

/-- Leaves the scene: camera rays see the backplate, all others the sky. -/
def escape (settings : Settings) (screen : Vec2 Float32) (isFirst : Bool) (p : Path) : Path :=
  match settings.backplate, isFirst with
  | some plate, true =>
    { p with sample := { p.sample with alpha := 1.0 } }.gather (plate.sample screen)
  | _, _ => p.gather (sky p.ray)

def meet (settings : Settings) (material : Material) (isFirst : Bool) (p : Path)
    (hit : Hit Float32) : Segment :=
  let p := p.note isFirst ⟨hit.t * p.ray.direction.length, material.albedo, hit.normal⟩
  let p := p.gather (material.emitted hit)
  match material.scatter p.ray hit p.rng with
  | (none, rng) => .ended { p with rng }
  | (some s, rng) =>
    { p with rng }.continued settings s.attenuation fun p => (⟨hit.point, s.direction⟩, p.rng)

def segment (settings : Settings) (world : World) (screen : Vec2 Float32) (isFirst : Bool)
    (p : Path) : Segment :=
  let w := Window.startingAt settings.epsilon
  let surface := world.trace p.ray w
  let near := (surface.map (·.t)).getD Scalar.infinity
  match mediumEvent world p.ray (w.upTo near) p.rng with
  | (some (t, medium), rng) => scatterInMedium settings isFirst { p with rng } t medium
  | (none, rng) =>
    let p := { p with rng }
    match surface with
    | none => .ended (p.escape settings screen isFirst)
    | some hit =>
      p.meet settings ((world.material? hit.owner).getD fallbackMaterial) isFirst hit

/-- Follows the path over at most `n` segments, the first of which is marked by `isFirst`. -/
def follow (settings : Settings) (world : World) (screen : Vec2 Float32) :
    Nat → Bool → Path → Path
  | 0, _, p => p
  | n + 1, isFirst, p => match p.segment settings world screen isFirst with
    | .ended p => p
    | .onward p => follow settings world screen n false p

def trace (settings : Settings) (world : World) (screen : Vec2 Float32) (ray : Ray Float32)
    (rng : Stream) : Path :=
  follow settings world screen settings.maxDepth.toNat true (start ray rng)

end Path

end TileTracer
