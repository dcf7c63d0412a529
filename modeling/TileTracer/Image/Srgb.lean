import TileTracer.Numeric.Binary32

namespace TileTracer.Srgb

/-- Linear light, limited to the unit interval, on the sRGB scale. -/
def encode (linear : Float32) : Float32 :=
  let c := Binary32.clamp linear 0.0 1.0
  if c ≤ 0.0031308 then 12.92 * c
  else 1.055 * c.pow (1.0 / 2.4) - 0.055

def decode (c : Float32) : Float32 :=
  if c ≤ 0.04045 then c / 12.92
  else ((c + 0.055) / 1.055).pow 2.4

/-- The unit interval rounded to 0 … 255; not a number gives 0. -/
def toByte (x : Float32) : UInt8 :=
  (Binary32.clamp x 0.0 1.0 * 255.0 + 0.5).toUInt8

end TileTracer.Srgb
