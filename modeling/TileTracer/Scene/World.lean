import TileTracer.Scene.Param

namespace TileTracer

namespace Scene

/-- The primitives of the instances that satisfy `keep`, each owned by its instance's position. -/
def primitives (keep : Instance → Bool) (instances : List Instance) :
    List (Primitive Float32) :=
  instances.zipIdx.flatMap fun (i, owner) =>
    if keep i then (i.primitives owner).getD [] else []

def firstDefect? (instances : List Instance) : Option SceneError :=
  instances.zipIdx.findSome? fun (i, index) =>
    i.defect?.map (SceneError.invalidInstance index i.name)

def volumeCount (scene : Scene) : Nat := scene.instances.countP (·.isVolume)

def geometryCount (scene : Scene) : Nat := scene.instances.countP (·.isGeometry)

def trace (scene : Scene) (ray : Ray Float32) (w : Window Float32) : Option (Hit Float32) :=
  scene.geometry.intersect ray w

def traceVolume (scene : Scene) (ray : Ray Float32) (w : Window Float32) : Option (Hit Float32) :=
  scene.volumes.intersect ray w

def material? (scene : Scene) (index : Nat) : Option Material :=
  scene.instances[index]? >>= Instance.material?

def medium? (scene : Scene) (index : Nat) : Option Medium :=
  scene.instances[index]? >>= Instance.medium?

end Scene

namespace WorldOf

def instancesKey : String := "instances"

/-- A world without instances, whose trees are built under a policy. -/
def withPolicy {Value : Type} (policy : BuildPolicy) : WorldOf Value :=
  { name := "", params := .empty, scene := none, policy, requests := 0 }

def empty {Value : Type} : WorldOf Value := withPolicy fun _ _ => none

def setParam {Value : Type} (w : WorldOf Value) (key : String) (value : Value) : WorldOf Value :=
  { w with params := w.params.set key value }

def requestTree {Value : Type} (w : WorldOf Value) (items : List (Primitive Float32)) :
    Except SceneError (BoxTree Float32) × WorldOf Value :=
  let next := { w with requests := w.requests + 1 }
  match w.policy w.requests items with
  | some reason => (.error (.build reason), next)
  | none => match BoxTree.ofList? items with
    | none => (.error .unordered, next)
    | some tree => (.ok tree, next)

def isCommitted {Value : Type} (w : WorldOf Value) : Bool := w.scene.isSome

def instances {Value : Type} (w : WorldOf Value) : List Instance :=
  (w.scene.map (·.instances)).getD []

def geometryCount {Value : Type} (w : WorldOf Value) : Nat :=
  (w.scene.map (·.geometryCount)).getD 0

def volumeCount {Value : Type} (w : WorldOf Value) : Nat :=
  (w.scene.map (·.volumeCount)).getD 0

def summary {Value : Type} (w : WorldOf Value) : String :=
  s!"World \x7b instances: {w.instances.length}, num_geometries: {w.geometryCount}, " ++
    s!"num_volumes: {w.volumeCount}, committed: {w.isCommitted} \x7d"

end WorldOf

namespace World

def setInstances (w : World) (instances : List Instance) : World :=
  w.setParam WorldOf.instancesKey (.instances instances)

/-- Requests the tree of the surfaces, then the tree of the volumes. -/
def requestScene (w : World) (instances : List Instance) : Except SceneError Scene × World :=
  match w.requestTree (Scene.primitives Instance.isGeometry instances) with
  | (.error e, w) => (.error e, w)
  | (.ok geometry, w) =>
    match w.requestTree (Scene.primitives Instance.isVolume instances) with
    | (.error e, w) => (.error e, w)
    | (.ok volumes, w) => (.ok { instances, geometry, volumes }, w)

/-- Makes the instance list the committed scene, if every instance is valid and both trees are
built. -/
def commit (w : World) : Except SceneError Scene × World :=
  match Params.instances? w.params WorldOf.instancesKey with
  | .error e => (.error e, w)
  | .ok list =>
    let instances := list.getD []
    match Scene.firstDefect? instances with
    | some e => (.error e, w)
    | none =>
      match w.requestScene instances with
      | (.error e, w) => (.error e, w)
      | (.ok scene, w) => (.ok scene, { w with scene := some scene })

def trace (w : World) (ray : Ray Float32) (window : Window Float32) : Option (Hit Float32) :=
  w.scene.bind (·.trace ray window)

def traceVolume (w : World) (ray : Ray Float32) (window : Window Float32) :
    Option (Hit Float32) :=
  w.scene.bind (·.traceVolume ray window)

def material? (w : World) (index : Nat) : Option Material := w.scene.bind (·.material? index)

def medium? (w : World) (index : Nat) : Option Medium := w.scene.bind (·.medium? index)

end World

end TileTracer
