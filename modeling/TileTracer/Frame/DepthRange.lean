import TileTracer.Numeric.Binary32

namespace TileTracer

inductive DepthRange where
  /-- No depth is finite. -/
  | background
  /-- All finite depths are equal. -/
  | flat
  | span (least scale : Float32)
  deriving DecidableEq, Repr

namespace DepthRange

/-- The least and the greatest of the finite depths, infinite the wrong way round if there are
none. -/
def extent (depths : Array Float32) : Float32 × Float32 :=
  depths.foldl
    (fun (low, high) d =>
      if Scalar.isFinite d then (Scalar.lesser low d, Scalar.greater high d) else (low, high))
    (Scalar.infinity, -Scalar.infinity)

def ofExtent (low high : Float32) : DepthRange :=
  if high < low then .background
  else if low < high then .span low (1.0 / (high - low))
  else .flat

def scan (depths : Array Float32) : DepthRange :=
  let (low, high) := extent depths
  ofExtent low high

/-- The gray value of a depth: 0 nearest, 1 farthest, and 1 for what is not finite. -/
def normalize (range : DepthRange) (depth : Float32) : Float32 :=
  if !Scalar.isFinite depth then 1.0
  else match range with
    | background => 1.0
    | flat => 0.0
    | span least scale => Scalar.lesser ((depth - least) * scale) 1.0

def toByte (range : DepthRange) (depth : Float32) : UInt8 :=
  (range.normalize depth * 255.0).toUInt8

end DepthRange

end TileTracer
