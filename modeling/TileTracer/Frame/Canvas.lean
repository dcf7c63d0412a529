import TileTracer.Frame.Layout
import TileTracer.Frame.Tile
import TileTracer.Image.Srgb

namespace TileTracer

inductive ColorStore where
  | bytes (pixels : Array (Vec4 UInt8))
  | floats (pixels : Array (Vec4 Float32))
  deriving DecidableEq, Repr

structure Canvas where
  color : ColorStore
  depth : Option (Array Float32)
  albedo : Option (Array Color)
  normal : Option (Array (Vec3 Float32))
  deriving DecidableEq, Repr

namespace PixelFormat

/-- A color as the bytes of a format; alpha is always linear. -/
def encode (format : PixelFormat) (c : Vec4 Float32) : Vec4 UInt8 :=
  match format with
  | srgba => ⟨Srgb.toByte (Srgb.encode c.x), Srgb.toByte (Srgb.encode c.y),
      Srgb.toByte (Srgb.encode c.z), Srgb.toByte c.w⟩
  | _ => ⟨Srgb.toByte c.x, Srgb.toByte c.y, Srgb.toByte c.z, Srgb.toByte c.w⟩

end PixelFormat

namespace ColorStore

def blank (format : PixelFormat) (n : Nat) : ColorStore :=
  match format with
  | .rgba8 | .srgba => .bytes (.replicate n (.splat 0))
  | .rgba32f => .floats (.replicate n .zero)

def size : ColorStore → Nat
  | bytes pixels => pixels.size
  | floats pixels => pixels.size

/-- Sets pixel `i` to a color, encoded as the format says if pixels are bytes. -/
def setPixel (store : ColorStore) (format : PixelFormat) (i : Nat) (c : Vec4 Float32) :
    ColorStore :=
  match store with
  | bytes pixels => .bytes (pixels.setIfInBounds i (format.encode c))
  | floats pixels => .floats (pixels.setIfInBounds i c)

/-- Pixels as bytes: stored bytes as they are, linear light on the sRGB scale. -/
def toBytes : ColorStore → Array (Vec4 UInt8)
  | bytes pixels => pixels
  | floats pixels => pixels.map fun c =>
      ⟨Srgb.toByte (Srgb.encode c.x), Srgb.toByte (Srgb.encode c.y), Srgb.toByte (Srgb.encode c.z),
        Srgb.toByte c.w⟩

end ColorStore

namespace Canvas

/-- The channels of a layout before anything is drawn: black, infinitely far. -/
def blank (layout : Layout) : Canvas :=
  let n := layout.pixelCount
  { color := .blank layout.format n
    depth := if layout.channels.depth then some (.replicate n Scalar.infinity) else none
    albedo := if layout.channels.albedo then some (.replicate n .zero) else none
    normal := if layout.channels.normal then some (.replicate n .zero) else none }

/-- Copies pixel `source` of a tile to pixel `target` of every channel. -/
def copyPixel (canvas : Canvas) (format : PixelFormat) (tile : Tile) (source target : Nat) :
    Canvas :=
  { color := canvas.color.setPixel format target (tile.color.getD source .zero)
    depth := canvas.depth.map (·.setIfInBounds target (tile.depth.getD source 0.0))
    albedo := canvas.albedo.map (·.setIfInBounds target (tile.albedo.getD source .zero))
    normal := canvas.normal.map (·.setIfInBounds target (tile.normal.getD source .zero)) }

def imageIndex (width : Nat) (r : Region) (i : Nat) : Nat :=
  (r.y + i / r.width) * width + (r.x + i % r.width)

def drawTile (canvas : Canvas) (layout : Layout) (tile : Tile) : Canvas :=
  (List.range tile.region.pixelCount).foldl
    (fun canvas i =>
      canvas.copyPixel layout.format tile i (imageIndex layout.width tile.region i))
    canvas

def channels (canvas : Canvas) : Channels :=
  ⟨canvas.depth.isSome, canvas.albedo.isSome, canvas.normal.isSome⟩

end Canvas

end TileTracer
