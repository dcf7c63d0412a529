import TileTracer.Image.Bitmap
import TileTracer.Image.Picture

namespace TileTracer

inductive FileFormat where
  | png | jpeg | gif | webp | tiff | tga | bmp | ico | qoi | pam
  /-- Plain samples without alpha: one bit, grey or color. -/
  | bitMap | greyMap | pixMap
  /-- Samples of more than eight bits. -/
  | hdr | openExr | farbfeld
  deriving DecidableEq, Repr

def fileName (path : String) : String :=
  .ofList (path.toList.reverse.takeWhile (· ≠ '/')).reverse

/-- The part of a path up to the last slash, empty if there is none. -/
def directoryName (path : String) : String :=
  .ofList (path.toList.reverse.dropWhile (· ≠ '/')).reverse

/-- What stands behind the last dot of the file name, if anything stands before that dot. -/
def extension? (path : String) : Option String :=
  let name := (fileName path).toList.reverse
  match name.dropWhile (· ≠ '.') with
  | _ :: _ :: _ => some (.ofList (name.takeWhile (· ≠ '.')).reverse)
  | _ => none

namespace FileFormat

def ofExtension? : String → Option FileFormat
  | "png" => some png
  | "jpg" | "jpeg" => some jpeg
  | "gif" => some gif
  | "webp" => some webp
  | "tif" | "tiff" => some tiff
  | "tga" => some tga
  | "bmp" => some bmp
  | "ico" => some ico
  | "qoi" => some qoi
  | "pam" => some pam
  | "pbm" => some bitMap
  | "pgm" => some greyMap
  | "ppm" => some pixMap
  | "hdr" => some hdr
  | "exr" => some openExr
  | "ff" | "farbfeld" => some farbfeld
  | _ => none

def ofPath? (path : String) : Option FileFormat :=
  (extension? path).bind fun e => ofExtension? e.toLower

/-- Whether files of a format are read into bitmaps of a kind. Text headers stand in front of grey
or color samples only, and icons have four bytes for each pixel. -/
def reads (f : FileFormat) (b : Bitmap) : Bool :=
  match f with
  | pam | bitMap | greyMap | pixMap => b.kind = .grey || b.kind = .rgb
  | ico => match b.kind, b.data with
    | .rgba, .bytes _ => true
    | _, _ => false
  | _ => true

/-- Whether pictures are written in a format: it takes color and alpha of eight bits, or color only.
-/
def isWritten : FileFormat → Bool
  | bitMap | greyMap | pixMap | hdr | openExr | farbfeld => false
  | _ => true

def largestSide? : FileFormat → Option Nat
  | ico => some 256
  | webp => some 16384
  | jpeg | gif | tga => some 65535
  | _ => none

def holds (f : FileFormat) (p : Picture) : Bool :=
  f.isWritten && f.largestSide?.all fun side => p.width ≤ side && p.height ≤ side

end FileFormat

end TileTracer
