import TileTracer.Numeric.Scalar

namespace TileTracer.Binary32

/-- Limits `x` to the range from `low` to `high`; not a number stays as it is. -/
@[inline] def clamp (x low high : Float32) : Float32 :=
  if x < low then low else if high < x then high else x

def ofNat (n : Nat) : Float32 :=
  OfScientific.ofScientific n false 0

def ofInt : Int → Float32
  | .ofNat n => ofNat n
  | .negSucc n => -ofNat (n + 1)

/-- The difference between 1 and the next binary32 value. -/
def epsilon : Float32 := 1.1920929e-7

/-- Degrees to radians, through the rounded factor. -/
def toRadians (degrees : Float32) : Float32 :=
  degrees * (Scalar.pi / 180.0)

end TileTracer.Binary32
