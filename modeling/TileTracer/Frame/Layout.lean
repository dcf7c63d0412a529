namespace TileTracer

inductive PixelFormat where
  /-- Bytes of linear light. -/
  | rgba8
  /-- Bytes on the sRGB scale, alpha linear. -/
  | srgba
  /-- Linear light in binary32. -/
  | rgba32f
  deriving DecidableEq, Repr

def PixelFormat.name : PixelFormat → String
  | rgba8 => "Rgba8"
  | srgba => "Srgba"
  | rgba32f => "Rgba32f"

structure Channels where
  depth : Bool
  albedo : Bool
  normal : Bool
  deriving DecidableEq, Repr

def Channels.colorOnly : Channels := ⟨false, false, false⟩

structure Layout where
  width : Nat
  height : Nat
  format : PixelFormat
  channels : Channels
  deriving DecidableEq, Repr

def Layout.pixelCount (layout : Layout) : Nat := layout.width * layout.height

end TileTracer
