import TileTracer.Image.Backplate
import TileTracer.Render.Error

namespace TileTracer

structure Settings where
  /-- The greatest number of segments of a path. -/
  maxDepth : UInt32
  /-- Paths whose throughput falls below this end. -/
  minContribution : Float32
  /-- Where the window of every ray starts. -/
  epsilon : Float32
  /-- Samples that each pass adds to a pixel. -/
  samplesPerPixel : UInt32
  backplate : Option Backplate
  deriving DecidableEq, Repr

namespace Settings

def default : Settings where
  maxDepth := 20
  minContribution := 0.01
  epsilon := 1e-3
  samplesPerPixel := 16
  backplate := none

/-- The low 32 bits of a number that is first raised to at least `least`. -/
def countOf (value least : Int64) : UInt32 :=
  (max value least).toUInt64.toUInt32

/-- Reads the backplate named by the parameters out of the images at hand. -/
def backplateOf (images : String → Option Bitmap) (params : Params) :
    Except RenderError (Option Backplate) := do
  match ← SceneError.lift (params.text? "backplate") with
  | none => return none
  | some path => match images path with
    | some bitmap => return some (.ofBitmap bitmap)
    | none => throw .backplate

def ofParams (images : String → Option Bitmap) (params : Params) :
    Except RenderError Settings := do
  let backplate ← backplateOf images params
  SceneError.lift do
    let maxDepth ← params.int "max_depth" 20
    let minContribution ← params.float "min_contribution" default.minContribution
    let epsilon ← params.float "epsilon" default.epsilon
    let samples ← params.int "spp" 16
    return { maxDepth := countOf maxDepth 0, minContribution, epsilon,
             samplesPerPixel := countOf samples 1, backplate }

end Settings

end TileTracer
