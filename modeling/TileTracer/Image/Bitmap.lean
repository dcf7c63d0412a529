import TileTracer.Geometry.Vector
import TileTracer.Image.Srgb

namespace TileTracer

inductive PixelKind where
  | grey | greyAlpha | rgb | rgba
  deriving DecidableEq, Repr

def PixelKind.samples : PixelKind → Nat
  | grey => 1
  | greyAlpha => 2
  | rgb => 3
  | rgba => 4

inductive SampleData where
  | bytes (data : Array UInt8)
  | words (data : Array UInt16)
  | floats (data : Array Float32)
  deriving DecidableEq, Repr

namespace SampleData

/-- Sample `i`, integers scaled to the unit interval. -/
def value (data : SampleData) (i : Nat) : Float32 :=
  match data with
  | bytes d => (d.getD i 0).toFloat32 / 255.0
  | words d => (d.getD i 0).toFloat32 / 65535.0
  | floats d => d.getD i 0.0

/-- Float samples hold linear light; integers are on the sRGB scale. -/
def isLinear : SampleData → Bool
  | floats _ => true
  | _ => false

end SampleData

structure Bitmap where
  width : Nat
  height : Nat
  kind : PixelKind
  data : SampleData
  deriving DecidableEq, Repr

namespace Bitmap

/-- The color of pixel `i` as stored; grey is copied and alpha is dropped. -/
def stored (b : Bitmap) (i : Nat) : Color :=
  let first := i * b.kind.samples
  match b.kind with
  | .grey | .greyAlpha => .splat (b.data.value first)
  | .rgb | .rgba => ⟨b.data.value first, b.data.value (first + 1), b.data.value (first + 2)⟩

def linear (b : Bitmap) (i : Nat) : Color :=
  if b.data.isLinear then b.stored i else (b.stored i).map Srgb.decode

end Bitmap

end TileTracer
