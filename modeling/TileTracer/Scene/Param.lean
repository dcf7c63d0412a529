import TileTracer.Geometry.BoxTree
import TileTracer.Scene.Camera
import TileTracer.Scene.Instance
import TileTracer.Table

/-!
Scene objects are set up through named parameters and read them when they are committed. A world is
itself a parameter value, so the two types are defined together: `WorldOf` leaves the type of
parameter values open and `Param` closes it.
-/

namespace TileTracer

/-- What a commit derives from an instance list: the instances and a box tree for each kind. -/
structure Scene where
  instances : List Instance
  geometry : BoxTree Float32
  volumes : BoxTree Float32

/-- Decides about each tree to be built, by the number of earlier requests: the reason to refuse
the primitives, if any. -/
abbrev BuildPolicy := Nat → List (Primitive Float32) → Option String

/-- A world over a type of parameter values. -/
structure WorldOf (Value : Type) where
  /-- The caller's name for the world; tracing ignores it. -/
  name : String
  params : Table Value
  /-- The committed state, once a commit has succeeded. -/
  scene : Option Scene
  policy : BuildPolicy
  /-- How many trees have been requested so far. -/
  requests : Nat

inductive Param where
  | bool (value : Bool)
  | int (value : Int64)
  | float (value : Float32)
  | vec3 (value : Vec3 Float32)
  | text (value : String)
  | instances (value : List Instance)
  | world (value : WorldOf Param)
  | camera (value : Camera)
  | material (value : Material)

abbrev World := WorldOf Param

abbrev Params := Table Param

inductive ParamKind where
  | bool | int | float | vec3 | text | instances | world | camera | material
  deriving DecidableEq, Repr

def ParamKind.name : ParamKind → String
  | bool => "bool"
  | int => "int"
  | float => "float"
  | vec3 => "vec3"
  | text => "text"
  | instances => "instances"
  | world => "world"
  | camera => "camera"
  | material => "material"

def Param.kind : Param → ParamKind
  | bool _ => .bool
  | int _ => .int
  | float _ => .float
  | vec3 _ => .vec3
  | text _ => .text
  | instances _ => .instances
  | world _ => .world
  | camera _ => .camera
  | material _ => .material

inductive SceneError where
  | invalidInstance (index : Nat) (name : String) (defect : Defect)
  | paramType (key : String) (expected found : ParamKind)
  /-- A box tree was refused. -/
  | build (reason : String)
  /-- Primitives cannot be put in order for a box tree. -/
  | unordered
  deriving DecidableEq, Repr

def SceneError.message : SceneError → String
  | invalidInstance index name defect =>
    s!"instance {index} ('{name}') is invalid: " ++ defect.message
  | paramType key expected _ =>
    s!"parameter '{key}' has the wrong type, expected " ++ expected.name
  | build reason => "acceleration structure build failed: " ++ reason
  | unordered => "primitives cannot be ordered by their centroids"

namespace Params

/-- Reads a parameter with `read?`, which gives `none` for a value of another kind. -/
def read? {β : Type} (params : Params) (key : String) (expected : ParamKind)
    (read? : Param → Option β) : Except SceneError (Option β) :=
  match params.get? key with
  | none => .ok none
  | some value => match read? value with
    | some b => .ok (some b)
    | none => .error (.paramType key expected value.kind)

def float (params : Params) (key : String) (absent : Float32) : Except SceneError Float32 :=
  (·.getD absent) <$> params.read? key .float fun
    | .float x => some x
    | .int i => some (Binary32.ofInt i.toInt)
    | _ => none

def int (params : Params) (key : String) (absent : Int64) : Except SceneError Int64 :=
  (·.getD absent) <$> params.read? key .int fun
    | .int i => some i
    | _ => none

/-- A vector; a number stands for three equal components. -/
def vec3 (params : Params) (key : String) (absent : Vec3 Float32) :
    Except SceneError (Vec3 Float32) :=
  (·.getD absent) <$> params.read? key .vec3 fun
    | .vec3 v => some v
    | .float x => some (.splat x)
    | _ => none

def text? (params : Params) (key : String) : Except SceneError (Option String) :=
  params.read? key .text fun
    | .text s => some s
    | _ => none

def instances? (params : Params) (key : String) : Except SceneError (Option (List Instance)) :=
  params.read? key .instances fun
    | .instances list => some list
    | _ => none

def camera? (params : Params) (key : String) : Except SceneError (Option Camera) :=
  params.read? key .camera fun
    | .camera c => some c
    | _ => none

def world? (params : Params) (key : String) : Except SceneError (Option World) :=
  params.read? key .world fun
    | .world w => some w
    | _ => none

/-- The world under the first key that is set; later keys are not looked at. -/
def findWorld (params : Params) : List String → Except SceneError (Option World)
  | [] => .ok none
  | key :: keys => do
    match ← params.world? key with
    | some world => return some world
    | none => params.findWorld keys

end Params

end TileTracer
