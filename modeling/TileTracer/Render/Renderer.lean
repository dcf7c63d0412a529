import TileTracer.Frame.Buffer
import TileTracer.Render.Job
import TileTracer.Scene.MaterialKind

namespace TileTracer

abbrev Palette := Table MaterialKind

/-- What a successful commit leaves behind. -/
structure Commitment where
  world : World
  camera : Camera
  generation : Nat

/-- Hands out generation numbers in increasing order, without a bound: `Studio.successor64?_run`
says when a word of 64 bits holds them. -/
structure GenerationCounter where
  next : Nat
  deriving DecidableEq, Repr

def GenerationCounter.first : GenerationCounter := ⟨1⟩

structure Renderer where
  settings : Settings
  palette : Palette
  params : Params
  committed : Option Commitment

/-- Where a commit looks for its world, in this order. -/
def worldKeys : List String := ["world", "model"]

def cameraKey : String := "camera"

/-- The world and the camera that parameters bind. The world is looked for first and must be
committed. -/
def resolveBinding (params : Params) (renderer : String) : Except RenderError (World × Camera) := do
  match ← SceneError.lift (params.findWorld worldKeys) with
  | none => throw (.missingWorld renderer worldKeys)
  | some world =>
    if !world.isCommitted then throw (.uncommittedWorld renderer)
    match ← SceneError.lift (params.camera? cameraKey) with
    | none => throw (.missingCamera renderer)
    | some camera => return (world, camera)

namespace Renderer

def typeName : String := "pathtracer"

def materialName (type : String) : String := "pathtracer_" ++ type

def create (settings : Settings) (palette : Palette) : Renderer :=
  { settings, palette, params := .empty, committed := none }

def setParam (r : Renderer) (key : String) (value : Param) : Renderer :=
  { r with params := r.params.set key value }

def eraseParam (r : Renderer) (key : String) : Renderer :=
  { r with params := r.params.erase key }

/-- Binds world and camera under the next generation number. -/
def commit (r : Renderer) (counter : GenerationCounter) :
    Except RenderError (Renderer × GenerationCounter) := do
  let (world, camera) ← resolveBinding r.params typeName
  return ({ r with committed := some { world, camera, generation := counter.next } },
    ⟨counter.next + 1⟩)

def world? (r : Renderer) : Option World := r.committed.map (·.world)

def camera? (r : Renderer) : Option Camera := r.committed.map (·.camera)

def generation? (r : Renderer) : Option Nat := r.committed.map (·.generation)

def createMaterial (r : Renderer) (type : String) (params : Params) :
    Except RenderError Material :=
  match r.palette.get? (materialName type) with
  | none => .error (.unknownMaterial typeName type)
  | some kind => SceneError.lift (kind.create params)

def createJob (r : Renderer) (fb : FrameBuffer) : Except RenderError Job :=
  match r.committed with
  | none => .error (.notCommitted typeName)
  | some c => .ok {
      context := { settings := r.settings, world := some c.world, camera := some c.camera }
      generation := c.generation
      width := fb.layout.width
      height := fb.layout.height }

end Renderer

end TileTracer
