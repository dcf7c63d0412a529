import TileTracer.Command.Run
import TileTracer.Image.Pam

namespace TileTracer.Main

def usage : String := "Tile-based path tracer

Usage: tessel [OPTIONS]

Options:
  -c, --config <CONFIG>  JSON render configuration
  -o, --output <OUTPUT>  Output image (format from the extension)
      --width <WIDTH>
      --height <HEIGHT>
  -p, --passes <PASSES>  Progressive passes to accumulate
      --depth            Replace color with normalized depth
  -h, --help             Print help
  -V, --version          Print version"

def versionLine : String := "tessel 0.1.0"

def attempt? {α : Type} (action : IO α) : IO (Option α) := do
  try return some (← action)
  catch _ => return none

/-- Whether a directory exists; the empty path is the current one. -/
def hasDirectory (path : String) : IO Bool := do
  let path := if path.isEmpty then "." else path
  return (← attempt? (IO.FS.realPath path)).isSome

def readImage (path : String) : IO (Option Bitmap) := do
  if FileFormat.ofPath? path = some .pam then
    let bytes ← attempt? (IO.FS.readBinFile path)
    return (bytes.bind (Bitmap.ofPam? ·.data)).filter FileFormat.pam.reads
  else return none

def gather (a : Arguments) : IO Workspace := do
  let text ← match a.config with
    | some path => attempt? (IO.FS.readFile path)
    | none => pure none
  let ws := { Workspace.empty with text? := fun _ => text }
  match ws.configure a with
  | .error _ => return ws
  | .ok c =>
    let image ← match c.backplate with
      | some path => readImage path
      | none => pure none
    let directory ← hasDirectory (directoryName c.output)
    return { ws with
      image? := fun _ => image
      hasPlace := fun _ => directory }

def announce (ws : Workspace) (a : Arguments) : IO Unit :=
  match ws.configure a with
  | .error _ => pure ()
  | .ok c => do
    if let some path := a.config then IO.eprintln (Event.configLoaded path).line
    IO.eprintln (Event.rendering c.width.toNat c.height.toNat c.passes.toNat
      c.samplesPerPixel.toNat).line
    for event in c.skippedStages do
      IO.eprintln event.line

def report (message : String) (code : UInt32) : IO UInt32 := do
  IO.eprintln message
  return code

def save (path : String) (picture : Picture) : IO UInt32 := do
  let written ← match (FileFormat.ofPath? path).bind picture.encode? with
    | some bytes => attempt? (IO.FS.writeBinFile path ⟨bytes⟩)
    | none => pure none
  match written with
  | some _ =>
    IO.eprintln (Event.saved path).line
    return 0
  | none => report ("Error: " ++ (CommandError.unwritten path).message) 1

end TileTracer.Main

open TileTracer in
def main (tokens : List String) : IO UInt32 := do
  let ws ← match Arguments.parse tokens with
    | .ok (.render a) => do
      let ws ← Main.gather a
      Main.announce ws a
      pure ws
    | _ => pure .empty
  match Outcome.ofArguments ws tokens with
  | .written path picture => Main.save path picture
  | .failed e => Main.report ("Error: " ++ e.message) 1
  | .refused e => Main.report ("error: " ++ e.message) 2
  | .help => do IO.println Main.usage; return 0
  | .version => do IO.println Main.versionLine; return 0
