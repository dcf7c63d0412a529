import TileTracer.Image.Encoding

namespace TileTracer

/-- Files as functions of their paths. -/
structure Workspace where
  text? : String → Option String
  image? : String → Option Bitmap
  hasPlace : String → Bool

/-- The names along a path from the current directory. Slashes in a row count as one, and a single
dot stays in place. There is none for a path from the root, for one that ends as directories do, and
for one that is too long or holds a null character. -/
def route? (path : String) : Option (List String) :=
  let parts := path.splitOn "/"
  let last := parts.getLast?.getD ""
  if path.utf8ByteSize ≤ 4095 && !path.startsWith "/" && !path.contains '\x00' &&
      last ≠ "" && last ≠ "." && last ≠ ".." then
    some (parts.filter fun part => part ≠ "" && part ≠ ".")
  else none

/-- The only name of a route, at most 255 bytes long. -/
def onlyName? : List String → Option String
  | [name] => if name.utf8ByteSize ≤ 255 then some name else none
  | _ => none

/-- The name of the file in the current directory that a path leads to. -/
def localFile? (path : String) : Option String := (route? path).bind onlyName?

namespace Workspace

def empty : Workspace := ⟨fun _ => none, fun _ => none, fun _ => false⟩

/-- The current directory with texts and images by their names. Images are read as the formats of
their paths allow, and files can be written there and in the directories above. -/
def flat (text? : String → Option String) (image? : String → Option Bitmap) : Workspace where
  text? path := localFile? path >>= text?
  image? path := do
    let name ← localFile? path
    let format ← FileFormat.ofPath? name
    (image? name).filter format.reads
  hasPlace path := ((route? path).bind fun names =>
    onlyName? (names.dropWhile (· = ".."))).isSome

/-- What a file shows after a picture has been written to it; `none` if that is not possible. -/
def save? (ws : Workspace) (path : String) (p : Picture) : Option Picture := do
  let format ← FileFormat.ofPath? path
  if format.holds p && ws.hasPlace path then some (p.shownIn format) else none

end Workspace

end TileTracer
