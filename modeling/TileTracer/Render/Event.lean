import TileTracer.Render.Error

namespace TileTracer

inductive Level where
  | info | warn | debug
  deriving DecidableEq, Repr

def Level.name : Level → String
  | info => "INFO"
  | warn => "WARN"
  | debug => "DEBUG"

inductive Event where
  | worldCommitted (geometries primitives volumes : Nat)
  /-- A key that should hold a world holds something else. -/
  | notAWorld (key : String) (found : ParamKind)
  | attached (op : String)
  | attachFailed (op : String) (cause : RenderError)
  /-- An operation was lost when the layout changed. -/
  | dropped (cause : RenderError)
  /-- A tile was left as it is, for lack of a world or a camera. -/
  | tileSkipped (index : Nat) (missing : String)
  | configLoaded (path : String)
  | rendering (width height passes samples : Nat)
  | stageSkipped (op : String)
  | saved (path : String)
  deriving DecidableEq, Repr

namespace Event

def level : Event → Level
  | notAWorld _ _ => .debug
  | attachFailed _ _ | dropped _ | tileSkipped _ _ | stageSkipped _ => .warn
  | _ => .info

def message : Event → String
  | worldCommitted geometries primitives volumes =>
    s!"World committed: {geometries} geometries ({primitives} primitives), {volumes} volumes"
  | notAWorld key found => s!"parameter '{key}' holds a " ++ found.name ++ ", not a world"
  | attached op => s!"Attached frame operation {op}"
  | attachFailed op cause => s!"Could not attach {op}: " ++ cause.message
  | dropped cause => "Dropping frame operation after layout change: " ++ cause.message
  | tileSkipped index missing => s!"Skipping tile {index}: kernel context has no {missing} bound"
  | configLoaded path => s!"Loaded config from {path}"
  | rendering width height passes samples =>
    s!"Rendering {width}x{height}, {passes} passes of {samples} spp"
  | stageSkipped op => s!"Rendering without frame operation '{op}'"
  | saved path => s!"Saved {path}"

def line (e : Event) : String := e.level.name ++ " " ++ e.message

end Event

def Scene.commitEvent (scene : Scene) : Event :=
  .worldCommitted (scene.instances.countP (·.isGeometry)) scene.geometry.size
    (scene.instances.countP (·.isVolume))

/-- What a search for a world reports: a value of another kind under its key. -/
def SceneError.searchEvents : SceneError → List Event
  | paramType key .world found => [.notAWorld key found]
  | _ => []

end TileTracer
