import TileTracer.Scene.Param

namespace TileTracer

inductive MaterialKind where
  | lambertian | metal | glass | luminous
  deriving DecidableEq, Repr

namespace MaterialKind

def all : List MaterialKind := [lambertian, metal, glass, luminous]

def name : MaterialKind → String
  | lambertian => "lambertian"
  | metal => "metal"
  | glass => "glass"
  | luminous => "luminous"

def create (kind : MaterialKind) (params : Params) : Except SceneError Material :=
  match kind with
  | lambertian => return .lambertian (← params.vec3 "color" (.splat 0.8))
  | metal => do
    let color ← params.vec3 "color" (.splat 0.9)
    let roughness ← params.float "roughness" 0.0
    return .metal color (Binary32.clamp roughness 0.0 1.0)
  | glass => return .glass (← params.float "eta" 1.5)
  | luminous => do
    let color ← params.vec3 "color" .one
    let intensity ← params.float "intensity" 1.0
    return .luminous color intensity

end MaterialKind

end TileTracer
