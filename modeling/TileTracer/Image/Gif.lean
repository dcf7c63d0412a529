import TileTracer.Image.Picture
import TileTracer.Numeric.BitOrder
import TileTracer.Numeric.ByteOrder

namespace TileTracer.Picture

/-- The color of the last pixel that is wholly transparent. -/
def clearColor? (p : Picture) : Option (Array UInt8) :=
  p.pixels.toList.reverse.find? (·.getD 3 0 = 0)

/-- The picture with pixels of one color transparent, those like the last wholly transparent one,
and all others opaque. -/
def withOneTransparent (p : Picture) : Picture :=
  match p.clearColor? with
  | none => p.withFullAlpha
  | some clear =>
    { p with bytes := p.pixels.flatMap fun pixel =>
        if pixel = clear then pixel else pixel.setIfInBounds 3 255 }

/-- The colors in the order in which they come first, none behind the first one too many. -/
def colors (limit : Nat) (p : Picture) : Array (Array UInt8) :=
  p.pixels.foldl (fun seen pixel =>
    if limit < seen.size || seen.contains pixel then seen else seen.push pixel) #[]

/-- A pixel with three bits of green left and two of red and blue. -/
def coarse (pixel : Array UInt8) : Array UInt8 :=
  pixel.mapIdx fun i b => match i with
    | 0 | 2 => b &&& 0xC0
    | 1 => b &&& 0xE0
    | _ => b

def withFewColors (p : Picture) : Picture :=
  if (p.colors 256).size ≤ 256 then p else { p with bytes := p.pixels.flatMap coarse }

/-- The code behind which only palette entries have codes again. -/
def clearCode : Nat := 256

def endCode : Nat := 257

/-- The bits of a row of palette entries: codes of nine bits. Codes are cleared before they would
take ten. -/
def gifCodes (entries : Array Nat) : Array Bool :=
  let width := BitOrder.little 9
  let bits := (entries.mapIdx fun i entry =>
    if i % 254 = 0 then width clearCode ++ width entry else width entry).flatten
  bits ++ width endCode

/-- Bytes in blocks of at most 255, each behind its size, and an empty block at the end. -/
def gifBlocks (bytes : Array UInt8) : Array UInt8 :=
  (Array.range ((bytes.size + 254) / 255)).flatMap (fun i =>
    let part := bytes.extract (255 * i) (255 * i + 255)
    ByteOrder.little 1 part.size ++ part) ++ #[0]

/-- The file of a picture in at most 256 colors with at most one of them transparent. -/
def toGif (p : Picture) : Array UInt8 :=
  let colors := p.colors 256
  let entry (pixel : Array UInt8) : Nat := (colors.idxOf? pixel).getD 0
  let control := match p.clearColor? with
    | none => #[]
    | some clear => #[0x21, 0xF9, 4, 1, 0, 0] ++ ByteOrder.little 1 (entry clear) ++ #[0]
  let size := ByteOrder.little 2 p.width ++ ByteOrder.little 2 p.height
  ByteOrder.ascii "GIF89a" ++ size ++ #[0xF7, 0, 0] ++ colors.flatMap (·.take 3) ++
    Array.replicate (3 * (256 - colors.size)) 0 ++ control ++ #[0x2C, 0, 0, 0, 0] ++ size ++
    #[0, 8] ++ gifBlocks (BitOrder.pack (gifCodes (p.pixels.map entry))) ++ #[0x3B]

end TileTracer.Picture
