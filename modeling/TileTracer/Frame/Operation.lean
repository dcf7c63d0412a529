import TileTracer.Frame.Canvas
import TileTracer.Frame.DepthRange
import TileTracer.Render.Error

namespace TileTracer

inductive FrameOp where
  /-- Replaces color and albedo by the normalized depth. -/
  | depth
  /-- Maps radiance times exposure into the unit interval. -/
  | toneMap (exposure : Float32)
  deriving DecidableEq, Repr

inductive FrameOpKind where
  | depth | toneMap
  deriving DecidableEq, Repr

namespace FrameOpKind

def all : List FrameOpKind := [depth, toneMap]

def name : FrameOpKind → String
  | depth => "frame_depth"
  | toneMap => "frame_tonemap"

/-- Makes an operation; the exposure is 1 unless it is set. -/
def create (kind : FrameOpKind) (params : Params) : Except SceneError FrameOp :=
  match kind with
  | depth => return .depth
  | toneMap => return .toneMap (← params.float "exposure" 1.0)

end FrameOpKind

def filmic (radiance : Float32) : Float32 :=
  let x := Scalar.greater radiance 0.0
  Binary32.clamp ((x * (2.51 * x + 0.03)) / (x * (2.43 * x + 0.59) + 0.14)) 0.0 1.0

/-- Exposes and maps red, green and blue; alpha stays. -/
def toneMapPixel (exposure : Float32) (c : Vec4 Float32) : Vec4 Float32 :=
  ⟨filmic (c.x * exposure), filmic (c.y * exposure), filmic (c.z * exposure), c.w⟩

namespace FrameOp

def kind : FrameOp → FrameOpKind
  | depth => .depth
  | toneMap _ => .toneMap

def name (op : FrameOp) : String := op.kind.name

/-- What keeps an operation from being attached to a layout. -/
def obstacle? (op : FrameOp) (layout : Layout) : Option RenderError :=
  match op with
  | depth => if layout.channels.depth then none else some (.missingChannel op.name "depth")
  | toneMap _ =>
    if layout.format = .rgba32f then none else some (.unsupportedFormat op.name layout.format)

/-- Replaces the colors of pixels that have a depth by their gray values; alpha stays. -/
def paintDepth (range : DepthRange) (depths : Array Float32) : ColorStore → ColorStore
  | .bytes pixels => .bytes (pixels.mapIdx fun i c =>
      match depths[i]? with
      | some d => let z := range.toByte d; ⟨z, z, z, c.w⟩
      | none => c)
  | .floats pixels => .floats (pixels.mapIdx fun i c =>
      match depths[i]? with
      | some d => let z := range.normalize d; ⟨z, z, z, c.w⟩
      | none => c)

def runDepth (canvas : Canvas) (depths : Array Float32) : Canvas :=
  let range := DepthRange.scan depths
  { canvas with
    color := paintDepth range depths canvas.color
    albedo := canvas.albedo.map fun albedo => albedo.mapIdx fun i a =>
      match depths[i]? with
      | some d => .splat (range.normalize d)
      | none => a }

def run (op : FrameOp) (canvas : Canvas) : Canvas :=
  match op with
  | depth => match canvas.depth with
    | some depths => runDepth canvas depths
    | none => canvas
  | toneMap exposure => match canvas.color with
    | .floats pixels => { canvas with color := .floats (pixels.map (toneMapPixel exposure)) }
    | .bytes _ => canvas

end FrameOp

/-- An operation bound to the layout that it was attached to. -/
structure Stage where
  op : FrameOp
  layout : Layout
  deriving DecidableEq, Repr

namespace FrameOp

def attach (op : FrameOp) (layout : Layout) : Except RenderError Stage :=
  match op.obstacle? layout with
  | some e => .error e
  | none => .ok ⟨op, layout⟩

end FrameOp

end TileTracer
