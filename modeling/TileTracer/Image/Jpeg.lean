import TileTracer.Image.Picture
import TileTracer.Numeric.BitOrder
import TileTracer.Numeric.ByteOrder

/-!
The colors of a picture in the baseline form, at the finest quantization. Every symbol of the two
codes stands for itself, with four bits for the first coefficient of a block and eight for the
others.
-/

namespace TileTracer.Picture

/-- The order of the coefficients in a block of eight rows, from low to high frequencies. -/
def zigzag : List Nat := [
  0, 1, 8, 16, 9, 2, 3, 10, 17, 24, 32, 25, 18, 11, 4, 5,
  12, 19, 26, 33, 40, 48, 41, 34, 27, 20, 13, 6, 7, 14, 21, 28,
  35, 42, 49, 56, 57, 50, 43, 36, 29, 22, 15, 23, 30, 37, 44, 51,
  58, 59, 52, 45, 38, 31, 39, 46, 53, 60, 61, 54, 47, 55, 62, 63]

/-- Brightness and the two color differences of a pixel, around zero. The picture goes on beyond its
last column and row. -/
def component (p : Picture) (channel x y : Nat) : Float :=
  let first := 4 * (min y (p.height - 1) * p.width + min x (p.width - 1))
  let sample (k : Nat) : Float := (p.bytes.getD (first + k) 0).toFloat
  let (r, g, b) := (sample 0, sample 1, sample 2)
  match channel with
  | 0 => 0.299 * r + 0.587 * g + 0.114 * b - 128.0
  | 1 => 0.5 * b - 0.168736 * r - 0.331264 * g
  | _ => 0.5 * r - 0.418688 * g - 0.081312 * b

/-- The factors of the cosine transform of eight values, by frequency and place. -/
def cosines : Array Float :=
  (Array.range 64).map fun i =>
    let scale := if i / 8 = 0 then (0.125 : Float).sqrt else 0.5
    scale * (((2 * (i % 8) + 1) * (i / 8)).toFloat * 3.141592653589793 / 16.0).cos

/-- The cosine transform along the rows of a block, which is transposed. -/
def transformRows (block : Array Float) : Array Float :=
  (Array.range 64).map fun i =>
    (List.range 8).foldl (fun sum k =>
      sum + cosines.getD (8 * (i / 8) + k) 0.0 * block.getD (8 * (i % 8) + k) 0.0) 0.0

def coefficients (block : Array Float) : List Int :=
  let transformed := transformRows (transformRows block)
  zigzag.map fun i => (transformed.getD i 0.0).round.toInt64.toInt

def category (n : Int) : Nat := if n = 0 then 0 else n.natAbs.log2 + 1

/-- The bits of a coefficient. For negative ones they are those of the number below them. -/
def coefficientBits (n : Int) : Array Bool :=
  let count := category n
  BitOrder.big count (if n < 0 then (n + Nat.pow 2 count - 1).toNat else n.toNat)

/-- The bits of all coefficients but the first, behind a number of zeros. A symbol has the number of
zeros in its high half, at most 15, and the number of bits in its low half. -/
def laterBits : Nat → List Int → Array Bool
  | zeros, [] => if zeros = 0 then #[] else BitOrder.big 8 0
  | zeros, n :: rest =>
    if n = 0 then laterBits (zeros + 1) rest
    else
      (Array.replicate (zeros / 16) (BitOrder.big 8 0xF0)).flatten ++
        BitOrder.big 8 (zeros % 16 * 16 + category n) ++ coefficientBits n ++ laterBits 0 rest

/-- The bits of a block, given the first coefficient of the block before it. -/
def blockBits (before : Int) : List Int → Array Bool
  | [] => #[]
  | first :: rest =>
    BitOrder.big 4 (category (first - before)) ++ coefficientBits (first - before) ++
      laterBits 0 rest

def blocks (p : Picture) (channel : Nat) : Array (List Int) :=
  let columns := (p.width + 7) / 8
  (Array.range (columns * ((p.height + 7) / 8))).map fun i =>
    coefficients ((Array.range 64).map fun k =>
      p.component channel (i % columns * 8 + k % 8) (i / columns * 8 + k / 8))

def jpegBits (p : Picture) : Array Bool :=
  let channels := #[p.blocks 0, p.blocks 1, p.blocks 2]
  let block (channel i : Nat) : List Int := (channels.getD channel #[]).getD i []
  (Array.range (channels.getD 0 #[]).size).flatMap fun i =>
    (Array.range 3).flatMap fun channel =>
      blockBits (if i = 0 then 0 else (block channel (i - 1)).headD 0) (block channel i)

def segment (mark : UInt8) (data : Array UInt8) : Array UInt8 :=
  #[0xFF, mark] ++ ByteOrder.big 2 (data.size + 2) ++ data

/-- A code whose symbols all have one length, by how many there are of each length. -/
def uniformCode (id : UInt8) (length count : Nat) : Array UInt8 :=
  #[id] ++ (Array.range 16).flatMap (fun i =>
    ByteOrder.little 1 (if i + 1 = length then count else 0)) ++
    (Array.range count).flatMap (ByteOrder.little 1)

def toJpeg (p : Picture) : Array UInt8 :=
  #[0xFF, 0xD8] ++
    segment 0xE0 (ByteOrder.ascii "JFIF" ++ #[0, 1, 1, 0, 0, 1, 0, 1, 0, 0]) ++
    segment 0xDB (#[0] ++ Array.replicate 64 1) ++
    segment 0xC0 (#[8] ++ ByteOrder.big 2 p.height ++ ByteOrder.big 2 p.width ++
      #[3, 1, 0x11, 0, 2, 0x11, 0, 3, 0x11, 0]) ++
    segment 0xC4 (uniformCode 0x00 4 12) ++ segment 0xC4 (uniformCode 0x10 8 255) ++
    segment 0xDA #[3, 1, 0, 2, 0, 3, 0, 0, 63, 0] ++
    -- a byte of ones would start a mark, so a zero follows it
    (BitOrder.packReversed p.jpegBits).flatMap (fun b => if b = 0xFF then #[b, 0] else #[b]) ++
    #[0xFF, 0xD9]

end TileTracer.Picture
