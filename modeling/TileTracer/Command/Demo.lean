import TileTracer.Render.Renderer
import TileTracer.Scene.World

namespace TileTracer.Demo

def colored (r g b : Float32) : Params := .ofList [("color", .vec3 ⟨r, g, b⟩)]

def floor : Mesh := .quad ⟨-20.0, 0.0, 20.0⟩ ⟨40.0, 0.0, 0.0⟩ ⟨0.0, 0.0, -40.0⟩

def fog : Medium where
  bounds := .spanning ⟨-1.0, 0.0, -1.0⟩ ⟨1.0, 1.0, 1.0⟩
  density := 0.6
  albedo := ⟨0.8, 0.85, 0.9⟩

/-- The instances, with materials that the renderer makes. -/
def instances (r : Renderer) : Except RenderError (List Instance) := do
  let ground ← r.createMaterial "lambertian" (colored 0.5 0.5 0.5)
  let clay ← r.createMaterial "lambertian" (colored 0.4 0.2 0.1)
  let metal ← r.createMaterial "metal" ((colored 0.7 0.6 0.5).set "roughness" (.float 0.05))
  let glass ← r.createMaterial "glass" (.ofList [("eta", .float 1.5)])
  let lamp ← r.createMaterial "luminous" ((colored 1.0 0.9 0.8).set "intensity" (.float 8.0))
  return [
    (Instance.geometry "ground" (.mesh floor)).withMaterial ground,
    ((Instance.geometry "glass_ball" (.sphere .zero 1.0)).withTransform
      (.shift ⟨0.0, 1.0, 0.0⟩)).withMaterial glass,
    (Instance.geometry "clay_ball" (.sphere ⟨-4.0, 1.0, 0.0⟩ 1.0)).withMaterial clay,
    (Instance.geometry "metal_ball" (.sphere ⟨4.0, 1.0, 0.0⟩ 1.0)).withMaterial metal,
    (Instance.geometry "lamp" (.sphere ⟨0.0, 4.0, 2.0⟩ 0.5)).withMaterial lamp,
    (Instance.volume "fog" fog).withTransform (.shift ⟨2.0, 0.0, 2.0⟩)]

def world (r : Renderer) : Except RenderError World := do
  let (result, world) := World.commit (World.setInstances .empty (← instances r))
  discard (SceneError.lift result)
  return world

def camera (aspect : Float32) : Camera :=
  ((Camera.default.withPosition ⟨13.0, 2.0, 3.0⟩ .zero ⟨0.0, 1.0, 0.0⟩).withLens
    20.0 0.3 10.0).withAspect aspect

end TileTracer.Demo
