import TileTracer.Image.Picture
import TileTracer.Numeric.BitOrder
import TileTracer.Numeric.ByteOrder

namespace TileTracer.Picture

/-- A code for samples in which every byte stands for itself, the highest bit first. Only codes of
length eight are described, and 256 of them. -/
def plainCode : Array Bool :=
  #[false] ++ BitOrder.little 4 8 ++ Array.replicate 33 false ++ BitOrder.little 3 1 ++ #[true] ++
    BitOrder.little 3 3 ++ BitOrder.little 8 254

/-- A code with one symbol, which takes no bits. -/
def emptyCode : Array Bool := #[true, false, false, false]

/-- The bits of a picture without any change of its samples: its size, whether alpha is used, the
codes of green, red, blue, alpha and distances, and the samples. -/
def webpBits (p : Picture) : Array Bool :=
  let sample (b : UInt8) : Array Bool := BitOrder.big 8 b.toNat
  let pixel (v : Array UInt8) : Array Bool :=
    sample (v.getD 1 0) ++ sample (v.getD 0 0) ++ sample (v.getD 2 0) ++ sample (v.getD 3 0)
  BitOrder.little 14 (p.width - 1) ++ BitOrder.little 14 (p.height - 1) ++ #[true] ++
    BitOrder.little 3 0 ++ #[false, false, false] ++
    plainCode ++ plainCode ++ plainCode ++ plainCode ++ emptyCode ++ p.pixels.flatMap pixel

def toWebp (p : Picture) : Array UInt8 :=
  let data := #[0x2F] ++ BitOrder.pack p.webpBits
  let padded := data ++ Array.replicate (data.size % 2) 0
  ByteOrder.ascii "RIFF" ++ ByteOrder.little 4 (12 + padded.size) ++
    ByteOrder.ascii "WEBPVP8L" ++ ByteOrder.little 4 data.size ++ padded

end TileTracer.Picture
