import TileTracer.Numeric.Binary32

namespace TileTracer

/-- A rectangle of pixels with its place in the render order. Its numbers have no bound here:
`Region.SizeFits` and `Region.FitsWords` say that words of 32 bits hold them. -/
structure Region where
  x : Nat
  y : Nat
  width : Nat
  height : Nat
  index : Nat
  deriving DecidableEq, Repr

namespace Region

def pixelCount (r : Region) : Nat := r.width * r.height

/-- Cell `i` along one side: where it starts and how much of it lies inside the image. -/
def cut (length size i : Nat) : Nat × Nat := (i * size, min size (length - i * size))

def cells (length size : Nat) : Nat := (length + size - 1) / size

/-- The cells of the grid in row-major order, clipped to the image. -/
def grid (width height size : Nat) : List Region :=
  (List.range (cells height size)).flatMap fun j =>
    (List.range (cells width size)).map fun i =>
      let (x, w) := cut width size i
      let (y, h) := cut height size j
      { x, y, width := w, height := h, index := 0 }

/-- The squared distance between the centers of a region and of the image. -/
def centerDistance (width height : Nat) (r : Region) : Float32 :=
  let dx := Binary32.ofNat r.x + Binary32.ofNat r.width / 2.0 - Binary32.ofNat width / 2.0
  let dy := Binary32.ofNat r.y + Binary32.ofNat r.height / 2.0 - Binary32.ofNat height / 2.0
  dx * dx + dy * dy

/-- Regions by distance from the center; regions of equal distance keep their order. -/
def centerOut (width height : Nat) (regions : List Region) : List Region :=
  regions.mergeSort fun a b => !decide (centerDistance width height b < centerDistance width height a)

def numbered (regions : List Region) : List Region :=
  regions.mapIdx fun i r => { r with index := i }

/-- The regions of an image in render order; size 0 counts as 1. -/
def cover (width height size : Nat) : List Region :=
  numbered (centerOut width height (grid width height (max size 1)))

def defaultSize : Nat := 64

end Region

end TileTracer
