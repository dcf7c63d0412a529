import TileTracer.Image.Picture
import TileTracer.Numeric.ByteOrder

namespace TileTracer.Picture

def crcStep (crc : UInt32) (byte : UInt8) : UInt32 :=
  (List.range 8).foldl
    (fun c _ => if c % 2 = 1 then (c >>> 1) ^^^ 0xEDB88320 else c >>> 1) (crc ^^^ byte.toUInt32)

def crc32 (bytes : Array UInt8) : Nat := (bytes.foldl crcStep 0xFFFFFFFF ^^^ 0xFFFFFFFF).toNat

/-- Two running sums modulo 65521, the second one in the high half. -/
def adler32 (bytes : Array UInt8) : Nat :=
  let (a, b) := bytes.foldl (fun (a, b) byte =>
    let a := (a + byte.toNat) % 65521
    (a, (b + a) % 65521)) (1, 0)
  b * 65536 + a

/-- A chunk: the length of its data, its type, the data, and the check of the last two. -/
def chunk (type : String) (data : Array UInt8) : Array UInt8 :=
  let body := ByteOrder.ascii type ++ data
  ByteOrder.big 4 data.size ++ body ++ ByteOrder.big 4 (crc32 body)

def blockSize : Nat := 65535

/-- A stream of stored blocks, the last of them marked. -/
def stored (data : Array UInt8) : Array UInt8 :=
  let count := max 1 ((data.size + blockSize - 1) / blockSize)
  let block (i : Nat) : Array UInt8 :=
    let part := data.extract (i * blockSize) ((i + 1) * blockSize)
    #[if i + 1 = count then 1 else 0] ++ ByteOrder.little 2 part.size ++
      ByteOrder.little 2 (65535 - part.size) ++ part
  #[0x78, 0x01] ++ (Array.range count).flatMap block ++ ByteOrder.big 4 (adler32 data)

/-- The file; every row is preceded by a filter byte that leaves it as it is. -/
def toPng (p : Picture) : Array UInt8 :=
  let header := ByteOrder.big 4 p.width ++ ByteOrder.big 4 p.height ++ #[8, 6, 0, 0, 0]
  #[0x89, 0x50, 0x4E, 0x47, 0x0D, 0x0A, 0x1A, 0x0A] ++ chunk "IHDR" header ++
    chunk "IDAT" (stored (p.rows.flatMap (#[0] ++ ·))) ++ chunk "IEND" #[]

end TileTracer.Picture
