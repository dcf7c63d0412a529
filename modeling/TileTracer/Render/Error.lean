import TileTracer.Frame.Layout
import TileTracer.Scene.Param

namespace TileTracer

inductive RenderError where
  | missingWorld (renderer : String) (keys : List String)
  | missingCamera (renderer : String)
  | uncommittedWorld (renderer : String)
  | notCommitted (renderer : String)
  | unknownMaterial (renderer type : String)
  | unknownRenderer (name : String)
  | unknownFrameOp (name : String)
  | missingChannel (op channel : String)
  | unsupportedFormat (op : String) (format : PixelFormat)
  | invalidSize (width height : Nat)
  | scene (cause : SceneError)
  /-- The backplate image cannot be read. -/
  | backplate
  deriving DecidableEq, Repr

inductive ErrorCategory where
  | configuration
  | capabilityMismatch
  | scene
  deriving DecidableEq, Repr

namespace RenderError

def keyList (keys : List String) : String :=
  "[" ++ ", ".intercalate (keys.map fun key => "\"" ++ key ++ "\"") ++ "]"

def message : RenderError → String
  | missingWorld renderer keys =>
    s!"{renderer} doesn't have a world (looked for " ++ keyList keys ++ ")"
  | missingCamera renderer => s!"{renderer} doesn't have a camera"
  | uncommittedWorld renderer => s!"the world bound to {renderer} has not been committed"
  | notCommitted renderer => s!"{renderer} has not been committed"
  | unknownMaterial renderer type => s!"invalid {renderer} material '{type}'"
  | unknownRenderer name => s!"unknown renderer type '{name}'"
  | unknownFrameOp name => s!"unknown frame operation '{name}'"
  | missingChannel op channel =>
    s!"{op} requires {channel} data but the framebuffer does not have this channel"
  | unsupportedFormat op format =>
    s!"{op} does not support " ++ format.name ++ " color buffers"
  | invalidSize width height => s!"invalid frame buffer size {width}x{height}"
  | scene cause => "scene error: " ++ cause.message
  | backplate => "failed to load backplate"

def category : RenderError → ErrorCategory
  | missingChannel _ _ | unsupportedFormat _ _ => .capabilityMismatch
  | scene (.invalidInstance _ _ _) => .scene
  | _ => .configuration

end RenderError

/-- A scene error met while rendering is set up. -/
def SceneError.lift {β : Type} (r : Except SceneError β) : Except RenderError β :=
  r.mapError .scene

end TileTracer
