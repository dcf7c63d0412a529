import TileTracer.Geometry.Primitive
import TileTracer.Numeric.Binary32
import TileTracer.Numeric.Decimal
import TileTracer.Scene.Material

namespace TileTracer

/-- Triangles over shared vertices: each three indices name the corners of one. -/
structure Mesh where
  positions : Array (Vec3 Float32)
  indices : List Nat
  deriving DecidableEq, Repr

inductive Shape where
  | sphere (center : Vec3 Float32) (radius : Float32)
  | mesh (mesh : Mesh)
  deriving DecidableEq, Repr

structure Medium where
  bounds : Box Float32
  /-- Extinction per unit of length. -/
  density : Float32
  albedo : Color
  deriving DecidableEq, Repr

inductive Content where
  | geometry (shape : Shape) (material : Option Material)
  | volume (medium : Medium)
  deriving DecidableEq, Repr

structure Instance where
  name : String
  /-- From the instance's own space into the world. -/
  transform : Transform Float32
  content : Content
  deriving DecidableEq, Repr

inductive Defect where
  | nonFiniteTransform
  | singularTransform
  | nonFiniteCenter
  | badRadius (radius : Float32)
  | badIndexCount (count : Nat)
  | indexOutOfRange (index vertices : Nat)
  | nonFinitePosition
  | badBounds
  | badDensity (density : Float32)
  deriving DecidableEq, Repr

def Defect.message : Defect → String
  | nonFiniteTransform => "transform has non-finite entries"
  | singularTransform => "transform is singular"
  | nonFiniteCenter => "sphere center is not finite"
  | badRadius radius => "sphere radius must be positive, got " ++ Decimal.text radius
  | badIndexCount count =>
    s!"mesh needs a non-empty index list in multiples of 3, got {count}"
  | indexOutOfRange index vertices => s!"index {index} out of range for {vertices} vertices"
  | nonFinitePosition => "mesh has non-finite vertex positions"
  | badBounds => "volume bounds are empty or unbounded"
  | badDensity density => "volume density must be >= 0, got " ++ Decimal.text density

namespace Mesh

/-- The parallelogram with a corner and two edges, as two triangles. -/
def quad (corner u v : Vec3 Float32) : Mesh :=
  ⟨#[corner, corner + u, corner + u + v, corner + v], [0, 1, 2, 0, 2, 3]⟩

def triangleCount (mesh : Mesh) : Nat := mesh.indices.length / 3

def defect? (mesh : Mesh) : Option Defect :=
  if mesh.indices.isEmpty || mesh.indices.length % 3 ≠ 0 then
    some (.badIndexCount mesh.indices.length)
  else match mesh.indices.find? (mesh.positions.size ≤ ·) with
    | some index => some (.indexOutOfRange index mesh.positions.size)
    | none => if mesh.positions.all Vec3.isFinite then none else some .nonFinitePosition

/-- The triangles named by an index list, a partial one at the end left out; `none` if an index
has no vertex. -/
def triangles (vertex? : Nat → Option (Vec3 Float32)) :
    List Nat → Option (List (Solid Float32))
  | i :: j :: k :: rest => do
    let a ← vertex? i
    let b ← vertex? j
    let c ← vertex? k
    let others ← triangles vertex? rest
    return .triangle a b c :: others
  | _ => some []

end Mesh

namespace Shape

def defect? : Shape → Option Defect
  | sphere center radius =>
    if !center.isFinite then some .nonFiniteCenter
    else if !(Scalar.isFinite radius && 0.0 < radius) then some (.badRadius radius)
    else none
  | mesh m => m.defect?

/-- The shape in world space. A sphere stays one: its radius grows by the largest scale. -/
def solids (shape : Shape) (transform : Transform Float32) : Option (List (Solid Float32)) :=
  match shape with
  | sphere center radius =>
    some [.sphere (transform.apply center) (radius * (transform.scale.map Float32.abs).largest)]
  | mesh m => Mesh.triangles (fun i => m.positions[i]?.map transform.apply) m.indices

end Shape

namespace Medium

def defect? (medium : Medium) : Option Defect :=
  if medium.bounds.isEmpty || !medium.bounds.isFinite then some .badBounds
  else if !(Scalar.isFinite medium.density && 0.0 ≤ medium.density) then
    some (.badDensity medium.density)
  else none

end Medium

namespace Content

def defect? : Content → Option Defect
  | geometry shape _ => shape.defect?
  | volume medium => medium.defect?

def solids (content : Content) (transform : Transform Float32) : Option (List (Solid Float32)) :=
  match content with
  | geometry shape _ => shape.solids transform
  | volume medium => some [.volume (medium.bounds.transformed transform)]

end Content

namespace Instance

def geometry (name : String) (shape : Shape) : Instance := ⟨name, .identity, .geometry shape none⟩

def volume (name : String) (medium : Medium) : Instance := ⟨name, .identity, .volume medium⟩

def withTransform (i : Instance) (transform : Transform Float32) : Instance :=
  { i with transform }

/-- A medium keeps no material. -/
def withMaterial (i : Instance) (material : Material) : Instance :=
  match i.content with
  | .geometry shape _ => { i with content := .geometry shape (some material) }
  | .volume _ => i

def isVolume (i : Instance) : Bool :=
  match i.content with
  | .volume _ => true
  | .geometry _ _ => false

def isGeometry (i : Instance) : Bool := !i.isVolume

def material? (i : Instance) : Option Material :=
  match i.content with
  | .geometry _ material => material
  | .volume _ => none

def medium? (i : Instance) : Option Medium :=
  match i.content with
  | .volume medium => some medium
  | .geometry _ _ => none

def triangleCount? (i : Instance) : Option Nat :=
  match i.content with
  | .geometry (.mesh mesh) _ => some mesh.triangleCount
  | _ => none

/-- The first defect: of the transform, then of the content. -/
def defect? (i : Instance) : Option Defect :=
  if !i.transform.isFinite then some .nonFiniteTransform
  else if i.transform.determinant.abs < Binary32.epsilon then some .singularTransform
  else i.content.defect?

/-- The primitives in world space, owned by instance number `owner`; `none` if a mesh names a
vertex that it does not have. -/
def primitives (i : Instance) (owner : Nat) : Option (List (Primitive Float32)) :=
  (i.content.solids i.transform).map fun solids => solids.map (⟨·, owner⟩)

end Instance

end TileTracer
