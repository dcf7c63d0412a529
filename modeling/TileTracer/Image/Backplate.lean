import TileTracer.Image.Bitmap

namespace TileTracer

structure Backplate where
  width : Nat
  height : Nat
  /-- Linear light in row-major order. -/
  pixels : Array Color
  deriving DecidableEq, Repr

namespace Backplate

def ofBitmap (b : Bitmap) : Backplate :=
  ⟨b.width, b.height, Array.ofFn fun i : Fin (b.width * b.height) => b.linear i⟩

def solid (color : Color) : Backplate := ⟨1, 1, #[color]⟩

/-- The index among `count` equal parts of the unit interval that holds `s`; positions outside go
to the nearest part and not a number to the first. -/
def cell (s : Float32) (count : Nat) : Nat :=
  min (Binary32.clamp s 0.0 1.0 * Binary32.ofNat count).toUInt32.toNat (count - 1)

/-- The pixel at a screen position, black if there are no pixels. -/
def sample (plate : Backplate) (screen : Vec2 Float32) : Color :=
  let x := cell screen.x plate.width
  let y := cell screen.y plate.height
  plate.pixels.getD (y * plate.width + x) .zero

end Backplate

end TileTracer
