import TileTracer.Command.Arguments
import TileTracer.Command.Demo
import TileTracer.Command.Workspace
import TileTracer.Render.Progress

namespace TileTracer

inductive CommandError where
  | unreadConfig (path : String)
  | malformedConfig (path : String)
  /-- The renderer of a name cannot be made. -/
  | renderer (name : String) (cause : RenderError)
  | render (cause : RenderError)
  | sizeMismatch
  | unwritten (path : String)
  deriving DecidableEq, Repr

def CommandError.message : CommandError → String
  | unreadConfig path => s!"Failed to read config {path}"
  | malformedConfig path => s!"Failed to parse config {path}"
  | renderer name _ => s!"Failed to create renderer '{name}'"
  | render cause => cause.message
  | sizeMismatch => "Frame buffer size does not match the image size"
  | unwritten path => s!"Failed to write {path}"

namespace Config

def load (reading : NumberReading) (files : String → Option String) (path : String) :
    Except CommandError Config :=
  match files path with
  | none => .error (.unreadConfig path)
  | some text => match parse? reading text with
    | none => .error (.malformedConfig path)
    | some c => .ok c

def createOps (c : Config) : Except RenderError (List FrameOp) :=
  c.frameOps.mapM fun name => Catalog.builtin.createFrameOp name c.frameOpParams

/-- The frame buffer with all operations that its layout supports. -/
def createBuffer (c : Config) : Except RenderError FrameBuffer := do
  let fb ← FrameBuffer.create c.layout c.tileSize.toNat
  return (← c.createOps).foldl (fun fb op => (fb.addOp op).toOption.getD fb) fb

/-- What the operations that the layout does not support report. -/
def skippedStages (c : Config) : List Event :=
  match c.createOps with
  | .error _ => []
  | .ok ops => ops.filterMap fun op =>
      (op.obstacle? c.layout).map fun _ => .stageSkipped op.name

def aspect (c : Config) : Float32 :=
  Binary32.ofNat c.width.toNat / Binary32.ofNat c.height.toNat

/-- The renderer with the demo scene committed. -/
def bindDemo (c : Config) (r : Renderer) : Except RenderError Renderer := do
  let r := r.setParam "world" (.world (← Demo.world r))
  let r := r.setParam cameraKey (.camera (Demo.camera c.aspect))
  return (← r.commit .first).1

/-- How many frames are rendered, at least one. -/
def frames (c : Config) : Nat := max c.passes.toNat 1

/-- Renders frames on top of one another. -/
def renderFrames (r : Renderer) : Nat → FrameBuffer → Except RenderError FrameBuffer
  | 0, fb => .ok fb
  | n + 1, fb => do renderFrames r n (← r.renderFrame FrameBuffer.centerOrder fb)

def picture (c : Config) (fb : FrameBuffer) : Picture :=
  if c.transparentBackground then .ofBuffer fb else (Picture.ofBuffer fb).withFullAlpha

/-- The picture of the size that the configuration asks for. -/
def picture? (c : Config) (fb : FrameBuffer) : Except CommandError Picture :=
  match Picture.ofBytes? c.width.toNat c.height.toNat (c.picture fb).bytes with
  | none => .error .sizeMismatch
  | some picture => .ok picture

def render (images : String → Option Bitmap) (c : Config) : Except CommandError Picture := do
  let r ← (Catalog.builtin.createRenderer images c.renderer c.rendererParams).mapError
    (.renderer c.renderer)
  let fb ← Except.mapError CommandError.render do
    let fb ← c.createBuffer
    renderFrames (← c.bindDemo r) c.frames fb
  c.picture? fb

end Config

/-- The configuration that options call for. A command reads numbers by scaling. -/
def Workspace.configure (ws : Workspace) (a : Arguments) : Except CommandError Config :=
  match a.config with
  | none => .ok (a.apply .default)
  | some path => (Config.load .scaled ws.text? path).map a.apply

inductive Outcome where
  /-- The file at a path shows a picture. -/
  | written (path : String) (picture : Picture)
  | failed (error : CommandError)
  | refused (error : UsageError)
  | help
  | version
  deriving DecidableEq, Repr

namespace Outcome

def code : Outcome → Nat
  | written _ _ | help | version => 0
  | failed _ => 1
  | refused _ => 2

def ofConfig (ws : Workspace) (c : Config) : Outcome :=
  match c.render ws.image? with
  | .error e => failed e
  | .ok picture => match ws.save? c.output picture with
    | none => failed (.unwritten c.output)
    | some shown => written c.output shown

def ofArguments (ws : Workspace) (tokens : List String) : Outcome :=
  match Arguments.parse tokens with
  | .error e => refused e
  | .ok .help => help
  | .ok .version => version
  | .ok (.render a) => match ws.configure a with
    | .error e => failed e
    | .ok c => ofConfig ws c

end Outcome

end TileTracer
