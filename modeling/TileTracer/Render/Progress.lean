import TileTracer.Render.Renderer

namespace TileTracer

structure FrameStats where
  /-- The number of the frame, from 1. -/
  frame : Nat
  tiles : Nat
  /-- Samples per pixel so far. -/
  samples : Nat
  deriving DecidableEq, Repr

namespace FrameBuffer

def renderTile (fb : FrameBuffer) (job : Job) (i : Nat) : FrameBuffer :=
  { fb with tiles := fb.tiles.modify i job.renderTile }

def renderTiles (fb : FrameBuffer) (job : Job) (order : List Nat) : FrameBuffer :=
  order.foldl (fun fb i => fb.renderTile job i) fb

/-- Renders one pass of tiles in a given order up to the first one that there is not, and tells
whether all are there. -/
def renderEach (fb : FrameBuffer) (job : Job) : List Nat → FrameBuffer × Bool
  | [] => (fb, true)
  | i :: rest =>
    if i < fb.tiles.size then (fb.renderTile job i).renderEach job rest else (fb, false)

/-- All tiles in their own order, from the center outwards. -/
def centerOrder (fb : FrameBuffer) : List Nat := List.range fb.tiles.size

/-- All tiles row by row. -/
def gridOrder (fb : FrameBuffer) : List Nat :=
  let place (i : Nat) : Nat × Nat :=
    match fb.tiles[i]? with
    | some tile => (tile.region.y, tile.region.x)
    | none => (0, 0)
  fb.centerOrder.mergeSort fun i j =>
    (place i).1 < (place j).1 || ((place i).1 = (place j).1 && (place i).2 ≤ (place j).2)

def finish (fb : FrameBuffer) : FrameBuffer := fb.drawTiles.endFrame

def stats (fb : FrameBuffer) : FrameStats := ⟨fb.frames, fb.tiles.size, fb.leastSamples⟩

end FrameBuffer

namespace Renderer

/-- Renders a frame, taking the tiles in the order that `order` gives for the buffer. -/
def renderFrame (r : Renderer) (order : FrameBuffer → List Nat) (fb : FrameBuffer) :
    Except RenderError FrameBuffer := do
  let job ← r.createJob fb
  return (fb.renderTiles job (order fb)).finish

end Renderer

end TileTracer
