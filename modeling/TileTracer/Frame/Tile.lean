import TileTracer.Frame.Region
import TileTracer.Geometry.Vector

/-!
A tile accumulates samples for the pixels of a region over several passes and holds their average.
Buffers are in row-major order within the region. Samples and passes are counted without a bound:
`Tile.CountersFit` says that words of 32 bits hold them.
-/

namespace TileTracer

structure Tile where
  region : Region
  /-- Averaged radiance and coverage. -/
  color : Array (Vec4 Float32)
  /-- Distance of the first hit, infinite where nothing was hit. -/
  depth : Array Float32
  albedo : Array Color
  normal : Array (Vec3 Float32)
  /-- Radiance and coverage summed over all samples. -/
  sums : Array (Vec4 Float32)
  samples : Nat
  passes : Nat
  /-- The renderer commit that the samples belong to. -/
  generation : Nat
  deriving DecidableEq, Repr

/-- What one pass finds for one pixel. -/
structure PixelRecord where
  sum : Vec4 Float32
  depth : Float32
  albedo : Color
  normal : Vec3 Float32
  deriving DecidableEq, Repr

namespace Tile

def ofRegion (region : Region) : Tile :=
  let n := region.pixelCount
  { region
    color := .replicate n .zero
    depth := .replicate n Scalar.infinity
    albedo := .replicate n .zero
    normal := .replicate n .zero
    sums := .replicate n .zero
    samples := 0
    passes := 0
    generation := 0 }

/-- Drops the samples; the averages stay until the next pass ends. -/
def reset (t : Tile) : Tile :=
  { t with sums := .replicate t.sums.size .zero, samples := 0, passes := 0 }

/-- The tile ready for a pass of a generation: another generation starts over. The pass about to
be rendered has the number `passes`. -/
def beginPass (t : Tile) (generation : Nat) : Tile :=
  if t.generation = generation then t else { t.reset with generation }

/-- Adds what a pass found for pixel `i`; changes nothing if there is no such pixel. -/
def record (t : Tile) (i : Nat) (p : PixelRecord) : Tile :=
  { t with
    sums := t.sums.modify i (· + p.sum)
    depth := t.depth.setIfInBounds i p.depth
    albedo := t.albedo.setIfInBounds i p.albedo
    normal := t.normal.setIfInBounds i p.normal }

def record? (t : Tile) (i : Nat) (p : PixelRecord) : Option Tile :=
  if i < t.sums.size then some (t.record i p) else none

/-- Counts a pass that added `samples` samples to every pixel and refreshes the averages. -/
def endPass (t : Tile) (samples : Nat) : Tile :=
  let t := { t with samples := t.samples + samples, passes := t.passes + 1 }
  if t.samples = 0 then t
  else
    let inverse := 1.0 / Binary32.ofNat t.samples
    { t with color := t.sums.map (· * inverse) }

end Tile

end TileTracer
