import TileTracer.Geometry.Vector
import TileTracer.Random.Stream

namespace TileTracer.Random

/-- The concentric map from the unit square onto the unit disk. -/
def concentricDisk (sample : Vec2 Float32) : Vec2 Float32 :=
  let x := 2.0 * sample.x - 1.0
  let y := 2.0 * sample.y - 1.0
  if x == 0.0 && y == 0.0 then ⟨0.0, 0.0⟩
  else
    let quarter : Float32 := 0.78539816339744830962
    let half : Float32 := 1.57079632679489661923
    let (r, theta) :=
      if y.abs < x.abs then (x, quarter * (y / x)) else (y, half - quarter * (x / y))
    ⟨r * theta.cos, r * theta.sin⟩

def cubePoint (s : Stream) : Vec3 Float32 × Stream :=
  let (x, s) := s.unit
  let (y, s) := s.unit
  let (z, s) := s.unit
  (⟨x * 2.0 - 1.0, y * 2.0 - 1.0, z * 2.0 - 1.0⟩, s)

/-- Whether a point of the cube lies in the ball and not too near its center. -/
def accepted (v : Vec3 Float32) : Bool := 1e-6 < v.lengthSquared && v.lengthSquared ≤ 1.0

/-- Draws points of the cube until one is accepted, at most `tries` of them, and scales that one to
length one. The direction after `tries` refused points means nothing. -/
def unitVectorWithin : Nat → Stream → Vec3 Float32 × Stream
  | 0, s => (⟨1.0, 0.0, 0.0⟩, s)
  | tries + 1, s =>
    let (v, s) := cubePoint s
    if accepted v then (v / v.lengthSquared.sqrt, s) else unitVectorWithin tries s

/-- A direction uniform on the unit sphere, by rejection without a limit: behind the words of the
current block the stream comes round when the block counter does, so a point behind the tries
allowed here is one that was refused before. -/
def unitVector (s : Stream) : Vec3 Float32 × Stream :=
  unitVectorWithin (16 * UInt64.size + s.pending.length) s

end TileTracer.Random
