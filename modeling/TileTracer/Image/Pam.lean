import TileTracer.Image.Bitmap
import TileTracer.Numeric.ByteOrder

namespace TileTracer.Bitmap

/-- The entries of the header by name, and where the samples start. -/
def pamHeader? (bytes : Array UInt8) : Option (List (String × String) × Nat) := do
  let mark := ByteOrder.ascii "\nENDHDR\n"
  let place ← (List.range bytes.size).find? fun i => bytes.extract i (i + mark.size) == mark
  let text := String.ofList ((bytes.extract 0 place).toList.map fun b => Char.ofNat b.toNat)
  match text.splitOn "\n" with
  | "P7" :: lines => some (lines.map fun line =>
      let words := line.splitOn " "
      (words.headD "", " ".intercalate words.tail), place + mark.size)
  | _ => none

def pamKind? : Nat → Option PixelKind
  | 1 => some .grey
  | 2 => some .greyAlpha
  | 3 => some .rgb
  | 4 => some .rgba
  | _ => none

/-- The samples up to a greatest value, the high byte of each first. -/
def pamData? (greatest count : Nat) (data : Array UInt8) : Option SampleData :=
  if greatest = 255 && data.size = count then some (.bytes data)
  else if greatest = 65535 && data.size = 2 * count then
    some (.words (Array.ofFn fun i : Fin count =>
      (data.getD (2 * i) 0).toUInt16 * 256 + (data.getD (2 * i + 1) 0).toUInt16))
  else none

def ofPam? (bytes : Array UInt8) : Option Bitmap := do
  let (entries, start) ← pamHeader? bytes
  let number (name : String) : Option Nat := entries.lookup name >>= String.toNat?
  let width ← number "WIDTH"
  let height ← number "HEIGHT"
  let kind ← (number "DEPTH") >>= pamKind?
  let data ← pamData? (← number "MAXVAL") (width * height * kind.samples)
    (bytes.extract start bytes.size)
  return { width, height, kind, data }

end TileTracer.Bitmap
