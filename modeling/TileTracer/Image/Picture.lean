import TileTracer.Frame.Buffer

namespace TileTracer

/-- The finished image: red, green, blue and alpha of each pixel in row-major order. -/
structure Picture where
  width : Nat
  height : Nat
  bytes : Array UInt8
  deriving DecidableEq, Repr

namespace Picture

/-- The picture of a size that some bytes give; `none` if there are too few of them. -/
def ofBytes? (width height : Nat) (bytes : Array UInt8) : Option Picture :=
  if 4 * width * height ≤ bytes.size then some ⟨width, height, bytes⟩ else none

def ofBuffer (fb : FrameBuffer) : Picture := ⟨fb.layout.width, fb.layout.height, fb.toBytes⟩

def withFullAlpha (p : Picture) : Picture :=
  { p with bytes := p.bytes.mapIdx fun i b => if i % 4 = 3 then 255 else b }

def rows (p : Picture) : Array (Array UInt8) :=
  (Array.range p.height).map fun y => p.bytes.extract (y * (4 * p.width)) ((y + 1) * (4 * p.width))

def pixels (p : Picture) : Array (Array UInt8) :=
  (Array.range (p.width * p.height)).map fun i => p.bytes.extract (4 * i) (4 * i + 4)

end Picture

end TileTracer
