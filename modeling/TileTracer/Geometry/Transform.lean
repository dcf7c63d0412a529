import TileTracer.Geometry.Vector

/-!
A transform is a 4 × 4 matrix given by its columns. Points use the first three rows only; the
determinant uses all four.
-/

namespace TileTracer

structure Transform (α : Type) where
  x : Vec4 α
  y : Vec4 α
  z : Vec4 α
  w : Vec4 α
  deriving DecidableEq, Repr, Inhabited

namespace Transform

variable {α : Type} [Scalar α]

def shift (offset : Vec3 α) : Transform α :=
  ⟨⟨1.0, 0.0, 0.0, 0.0⟩, ⟨0.0, 1.0, 0.0, 0.0⟩, ⟨0.0, 0.0, 1.0, 0.0⟩, offset.extend 1.0⟩

def identity : Transform α := shift Vec3.zero

@[inline] def apply (m : Transform α) (p : Vec3 α) : Vec3 α :=
  m.w.head + (m.z.head * p.z + (m.y.head * p.y + m.x.head * p.x))

/-- The determinant, expanded along the first column over the minors of the last two columns. -/
def determinant (m : Transform α) : α :=
  let e0 := m.z.z * m.w.w - m.z.w * m.w.z
  let e1 := m.z.y * m.w.w - m.z.w * m.w.y
  let e2 := m.z.y * m.w.z - m.z.z * m.w.y
  let e3 := m.z.x * m.w.w - m.z.w * m.w.x
  let f0 := m.z.x * m.w.z - m.z.z * m.w.x
  let f1 := m.z.x * m.w.y - m.z.y * m.w.x
  let d0 := (m.y.y * e0 - m.y.z * e1) + m.y.w * e2
  let d1 := -((m.y.x * e0 - m.y.z * e3) + m.y.w * f0)
  let d2 := (m.y.x * e1 - m.y.y * e3) + m.y.w * f1
  let d3 := -((m.y.x * e2 - m.y.y * f0) + m.y.z * f1)
  (m.x.x * d0 + m.x.z * d2) + (m.x.y * d1 + m.x.w * d3)

/-- The sign of a value as 1 or -1; not a number stays as it is. -/
def sign (s : α) : α :=
  if s < 0.0 then -(1.0 : α) else if (0.0 : α) ≤ s then 1.0 else s

/-- The lengths of the first three columns, the first one signed as the determinant. -/
def scale (m : Transform α) : Vec3 α :=
  ⟨m.x.length * sign m.determinant, m.y.length, m.z.length⟩

def isFinite (m : Transform α) : Bool :=
  m.x.isFinite && m.y.isFinite && m.z.isFinite && m.w.isFinite

end Transform

end TileTracer
