import TileTracer.Frame.Tile
import TileTracer.Render.Event
import TileTracer.Render.Path

/-!
A job holds all that the tiles of one frame are rendered from. The random numbers of a pixel depend
on its place in the image and on the pass alone, so tiles can be rendered in any order.
-/

namespace TileTracer

open TileTracer.Random (Stream)

/-- What a renderer traces against. -/
structure Context where
  settings : Settings
  world : Option World
  camera : Option Camera

def Context.isBound (c : Context) : Bool := c.world.isSome && c.camera.isSome

/-- Mixes position and pass of a pixel into the seed of its random numbers. -/
def pixelSeed (x y pass : UInt32) : UInt64 :=
  let z := ((y.toUInt64 <<< 32) ||| x.toUInt64) ^^^ (pass.toUInt64 * 0x9E3779B97F4A7C15)
  let z := (z ^^^ (z >>> 30)) * 0xBF58476D1CE4E5B9
  let z := (z ^^^ (z >>> 27)) * 0x94D049BB133111EB
  z ^^^ (z >>> 31)

/-- The frame that a job renders: its size and the commit that its samples belong to. -/
structure Job where
  context : Context
  generation : Nat
  width : Nat
  height : Nat

structure PixelSum where
  sum : Vec4 Float32
  /-- From the first sample. -/
  first : FirstHit
  rng : Stream
  deriving DecidableEq, Repr

namespace Job

/-- One sample: a ray through a random point of the pixel from a random point of the lens. -/
def samplePixel (job : Job) (world : World) (camera : Camera) (x y : Nat) (rng : Stream) : Path :=
  let (a, rng) := rng.unit
  let (b, rng) := rng.unit
  let screen : Vec2 Float32 :=
    ⟨(Binary32.ofNat x + a) * (1.0 / Binary32.ofNat job.width),
     (Binary32.ofNat y + b) * (1.0 / Binary32.ofNat job.height)⟩
  let (u, rng) := rng.unit
  let (v, rng) := rng.unit
  Path.trace job.context.settings world screen (camera.primaryRay screen ⟨u, v⟩) rng

def addSamples (job : Job) (world : World) (camera : Camera) (x y : Nat) :
    Nat → PixelSum → PixelSum
  | 0, p => p
  | n + 1, p =>
    let path := job.samplePixel world camera x y p.rng
    addSamples job world camera x y n
      { p with sum := p.sum + path.sample.radiance.extend path.sample.alpha, rng := path.rng }

/-- The samples that one pass takes of a pixel, at least one. -/
def samples (job : Job) : Nat := max job.context.settings.samplesPerPixel.toNat 1

def renderPixel (job : Job) (world : World) (camera : Camera) (pass x y : Nat) : PixelRecord :=
  let rng := Stream.ofSeed (pixelSeed x.toUInt32 y.toUInt32 pass.toUInt32)
  let path := job.samplePixel world camera x y rng
  let start : PixelSum :=
    { sum := .zero + path.sample.radiance.extend path.sample.alpha
      first := path.sample.first
      rng := path.rng }
  let total := job.addSamples world camera x y (job.samples - 1) start
  { sum := total.sum, depth := total.first.depth, albedo := total.first.albedo,
    normal := total.first.normal }

def renderInto (job : Job) (world : World) (camera : Camera) (tile : Tile) (i : Nat) : Tile :=
  let r := tile.region
  tile.record i
    (job.renderPixel world camera tile.passes (r.x + i % r.width) (r.y + i / r.width))

def renderBound (job : Job) (world : World) (camera : Camera) (tile : Tile) : Tile :=
  let tile := tile.beginPass job.generation
  let tile := (List.range tile.region.pixelCount).foldl (job.renderInto world camera) tile
  tile.endPass job.samples

/-- Renders one pass of a tile; without a world and a camera the tile stays as it is. -/
def renderTile (job : Job) (tile : Tile) : Tile :=
  match job.context.world, job.context.camera with
  | some world, some camera => job.renderBound world camera tile
  | _, _ => tile

def tileEvents (job : Job) (tile : Tile) : List Event :=
  match job.context.world, job.context.camera with
  | none, _ => [.tileSkipped tile.region.index "world"]
  | some _, none => [.tileSkipped tile.region.index "camera"]
  | some _, some _ => []

end Job

end TileTracer
