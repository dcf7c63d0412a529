import TileTracer.Frame.Operation
import TileTracer.Render.Event

namespace TileTracer

/-- Channels, tiles and operations of a layout, and the number of frames completed. That the numbers
are words is said by `FrameBuffer.FitsWords`. -/
structure FrameBuffer where
  layout : Layout
  canvas : Canvas
  tileSize : Nat
  tiles : Array Tile
  stages : List Stage
  frames : Nat
  deriving DecidableEq, Repr

namespace FrameBuffer

def coverTiles (layout : Layout) (tileSize : Nat) : Array Tile :=
  ((Region.cover layout.width layout.height tileSize).map Tile.ofRegion).toArray

/-- A blank buffer; size 0 of the tiles counts as 1. -/
def blank (layout : Layout) (tileSize : Nat) : FrameBuffer :=
  let tileSize := max tileSize 1
  { layout, canvas := .blank layout, tileSize, tiles := coverTiles layout tileSize,
    stages := [], frames := 0 }

def create (layout : Layout) (tileSize : Nat) : Except RenderError FrameBuffer :=
  if layout.width = 0 || layout.height = 0 then .error (.invalidSize layout.width layout.height)
  else .ok (blank layout tileSize)

def opNames (fb : FrameBuffer) : List String := fb.stages.map (·.op.name)

def viewLayout (fb : FrameBuffer) : Layout := { fb.layout with channels := fb.canvas.channels }

def resetAccumulation (fb : FrameBuffer) : FrameBuffer :=
  { fb with tiles := fb.tiles.map Tile.reset }

def addOp (fb : FrameBuffer) (op : FrameOp) : Except RenderError FrameBuffer := do
  let stage ← op.attach fb.layout
  return { fb with stages := fb.stages ++ [stage] }

def attachEvent (layout : Layout) (op : FrameOp) : Event :=
  match op.obstacle? layout with
  | none => .attached op.name
  | some cause => .attachFailed op.name cause

/-- The operations that can be attached to a layout, attached to it. -/
def reattach (layout : Layout) (ops : List FrameOp) : List Stage :=
  ops.filterMap fun op => (op.attach layout).toOption

def reattachEvents (layout : Layout) (ops : List FrameOp) : List Event :=
  ops.flatMap fun op => match op.obstacle? layout with
    | none => [.attached op.name]
    | some cause => [.attachFailed op.name cause, .dropped cause]

/-- A blank buffer of a new layout that keeps the frame counter and the operations that the layout
supports. -/
def relayout (fb : FrameBuffer) (layout : Layout) : FrameBuffer :=
  { blank layout fb.tileSize with
    stages := reattach layout (fb.stages.map (·.op))
    frames := fb.frames }

/-- Changes the layout, with what is reported; the same layout changes nothing. -/
def setLayout (fb : FrameBuffer) (layout : Layout) : FrameBuffer × List Event :=
  if layout = fb.layout then (fb, [])
  else (fb.relayout layout, reattachEvents layout (fb.stages.map (·.op)))

def resize (fb : FrameBuffer) (width height : Nat) :
    Except RenderError (FrameBuffer × List Event) :=
  if width = 0 || height = 0 then .error (.invalidSize width height)
  else .ok (fb.setLayout { fb.layout with width, height })

def setFormat (fb : FrameBuffer) (format : PixelFormat) : FrameBuffer × List Event :=
  fb.setLayout { fb.layout with format }

def clearOps (fb : FrameBuffer) : FrameBuffer := { fb with stages := [] }

def drawTiles (fb : FrameBuffer) : FrameBuffer :=
  { fb with canvas := fb.tiles.foldl (fun canvas tile => canvas.drawTile fb.layout tile) fb.canvas }

/-- Runs the operations on the completed frame and counts it. -/
def endFrame (fb : FrameBuffer) : FrameBuffer :=
  { fb with
    canvas := fb.stages.foldl (fun canvas stage => stage.op.run canvas) fb.canvas
    frames := fb.frames + 1 }

def leastSamples (fb : FrameBuffer) : Nat :=
  (fb.tiles.toList.map (·.samples)).min?.getD 0

/-- The colors as bytes on the sRGB scale, red, green, blue and alpha of each pixel in turn. -/
def toBytes (fb : FrameBuffer) : Array UInt8 :=
  fb.canvas.color.toBytes.flatMap fun c => #[c.x, c.y, c.z, c.w]

/-- Overwrites the first of two arrays with the second as far as that reaches. -/
def overwrite {β : Type} (old new : Array β) : Array β :=
  old.mapIdx fun i b => new.getD i b

def writeDepth (fb : FrameBuffer) (values : Array Float32) : Option FrameBuffer :=
  fb.canvas.depth.map fun depth =>
    { fb with canvas := { fb.canvas with depth := some (overwrite depth values) } }

def writeBytes (fb : FrameBuffer) (values : Array (Vec4 UInt8)) : FrameBuffer :=
  match fb.canvas.color with
  | .bytes pixels => { fb with canvas := { fb.canvas with color := .bytes (overwrite pixels values) } }
  | .floats _ => fb

def writeFloats (fb : FrameBuffer) (values : Array (Vec4 Float32)) : FrameBuffer :=
  match fb.canvas.color with
  | .floats pixels =>
    { fb with canvas := { fb.canvas with color := .floats (overwrite pixels values) } }
  | .bytes _ => fb

end FrameBuffer

end TileTracer
