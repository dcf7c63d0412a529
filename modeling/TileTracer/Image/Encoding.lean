import TileTracer.Image.FileFormat
import TileTracer.Image.Gif
import TileTracer.Image.Jpeg
import TileTracer.Image.Png
import TileTracer.Image.Webp

namespace TileTracer

namespace Picture

/-- Blue, green, red and alpha of each pixel of a row. -/
def blueFirst (row : Array UInt8) : Array UInt8 :=
  row.mapIdx fun i b => match i % 4 with
    | 0 => row.getD (i + 2) 0
    | 2 => row.getD (i - 2) 0
    | _ => b

/-- A text header in front of the samples. -/
def toPam (p : Picture) : Array UInt8 :=
  ByteOrder.ascii s!"P7\nWIDTH {p.width}\nHEIGHT {p.height}\nDEPTH 4\nMAXVAL 255\n" ++
    ByteOrder.ascii "TUPLTYPE RGB_ALPHA\nENDHDR\n" ++ p.bytes

/-- A file header and a version 4 header with channel masks; the last row comes first. -/
def toBmp (p : Picture) : Array UInt8 :=
  let size := p.bytes.size
  ByteOrder.ascii "BM" ++ ByteOrder.little 4 (122 + size) ++ ByteOrder.little 4 0 ++
    ByteOrder.little 4 122 ++ ByteOrder.little 4 108 ++ ByteOrder.little 4 p.width ++
    ByteOrder.little 4 p.height ++ ByteOrder.little 2 1 ++ ByteOrder.little 2 32 ++
    ByteOrder.little 4 3 ++ ByteOrder.little 4 size ++ Array.replicate 16 0 ++
    ByteOrder.little 4 0x00FF0000 ++ ByteOrder.little 4 0x0000FF00 ++
    ByteOrder.little 4 0x000000FF ++ ByteOrder.little 4 0xFF000000 ++
    ByteOrder.little 4 0x73524742 ++ Array.replicate 48 0 ++
    p.rows.reverse.flatMap blueFirst

/-- True color with eight bits of alpha, the first row at the top. -/
def toTga (p : Picture) : Array UInt8 :=
  #[0, 0, 2] ++ Array.replicate 9 0 ++ ByteOrder.little 2 p.width ++
    ByteOrder.little 2 p.height ++ #[32, 0x28] ++ p.rows.flatMap blueFirst

/-- One uncompressed strip behind a directory of ten entries. -/
def toTiff (p : Picture) : Array UInt8 :=
  -- an entry holds a tag, the type of its values, their count and the value or where it is
  let entry (tag type count value : Nat) : Array UInt8 :=
    ByteOrder.little 2 tag ++ ByteOrder.little 2 type ++ ByteOrder.little 4 count ++
      ByteOrder.little 4 value
  ByteOrder.ascii "II" ++ ByteOrder.little 2 42 ++ ByteOrder.little 4 8 ++
    ByteOrder.little 2 10 ++
    entry 256 4 1 p.width ++ entry 257 4 1 p.height ++ entry 258 3 4 134 ++
    entry 259 3 1 1 ++ entry 262 3 1 2 ++ entry 273 4 1 142 ++ entry 277 3 1 4 ++
    entry 278 4 1 p.height ++ entry 279 4 1 p.bytes.size ++ entry 338 3 1 2 ++
    ByteOrder.little 4 0 ++ #[8, 0, 8, 0, 8, 0, 8, 0] ++ p.bytes

/-- Every pixel as a chunk of its own. -/
def toQoi (p : Picture) : Array UInt8 :=
  ByteOrder.ascii "qoif" ++ ByteOrder.big 4 p.width ++ ByteOrder.big 4 p.height ++ #[4, 0] ++
    p.pixels.flatMap (#[0xFF] ++ ·) ++ #[0, 0, 0, 0, 0, 0, 0, 1]

/-- A directory with one PNG image; a size of 256 is kept as 0. -/
def toIco (p : Picture) : Array UInt8 :=
  let png := p.toPng
  #[0, 0, 1, 0, 1, 0] ++ ByteOrder.little 1 p.width ++ ByteOrder.little 1 p.height ++
    #[0, 0, 1, 0, 32, 0] ++ ByteOrder.little 4 png.size ++ ByteOrder.little 4 22 ++ png

/-- What a file of a format shows. One has few colors and a single transparent one, and one has no
alpha and comes close to the colors; the others keep all samples. -/
def shownIn (p : Picture) : FileFormat → Picture
  | .gif => p.withOneTransparent.withFewColors
  | .jpeg => p.withFullAlpha
  | _ => p

def encode? (p : Picture) : FileFormat → Option (Array UInt8)
  | .png => some p.toPng
  | .jpeg => some p.toJpeg
  | .gif => some p.withOneTransparent.withFewColors.toGif
  | .webp => some p.toWebp
  | .tiff => some p.toTiff
  | .tga => some p.toTga
  | .bmp => some p.toBmp
  | .ico => some p.toIco
  | .qoi => some p.toQoi
  | .pam => some p.toPam
  | .bitMap | .greyMap | .pixMap | .hdr | .openExr | .farbfeld => none

end Picture

end TileTracer
