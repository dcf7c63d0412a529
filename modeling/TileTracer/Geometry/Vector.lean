import TileTracer.Numeric.Scalar

/-!
Vectors of two, three and four components. Sums associate to the left and division by a length is
multiplication by its reciprocal, so that each result is one fixed sequence of roundings.
-/

namespace TileTracer

inductive Axis where
  | x | y | z
  deriving DecidableEq, Repr

structure Vec2 (α : Type) where
  x : α
  y : α
  deriving DecidableEq, Repr, Inhabited

structure Vec3 (α : Type) where
  x : α
  y : α
  z : α
  deriving DecidableEq, Repr, Inhabited

structure Vec4 (α : Type) where
  x : α
  y : α
  z : α
  w : α
  deriving DecidableEq, Repr, Inhabited

/-- Linear red, green and blue. -/
abbrev Color := Vec3 Float32

namespace Vec3

@[inline] def splat {α : Type} (s : α) : Vec3 α := ⟨s, s, s⟩

@[inline] def along {α : Type} (v : Vec3 α) : Axis → α
  | .x => v.x
  | .y => v.y
  | .z => v.z

@[inline] def map {α β : Type} (f : α → β) (v : Vec3 α) : Vec3 β := ⟨f v.x, f v.y, f v.z⟩

/-- A fourth component behind the three. -/
@[inline] def extend {α : Type} (v : Vec3 α) (w : α) : Vec4 α := ⟨v.x, v.y, v.z, w⟩

variable {α : Type} [Scalar α]

@[inline] def zero : Vec3 α := splat 0.0
@[inline] def one : Vec3 α := splat 1.0

@[inline] instance : Add (Vec3 α) := ⟨fun a b => ⟨a.x + b.x, a.y + b.y, a.z + b.z⟩⟩
@[inline] instance : Sub (Vec3 α) := ⟨fun a b => ⟨a.x - b.x, a.y - b.y, a.z - b.z⟩⟩
@[inline] instance : Neg (Vec3 α) := ⟨fun a => ⟨-a.x, -a.y, -a.z⟩⟩
/-- Multiplication of two vectors is componentwise. -/
@[inline] instance : Mul (Vec3 α) := ⟨fun a b => ⟨a.x * b.x, a.y * b.y, a.z * b.z⟩⟩
@[inline] instance : HMul (Vec3 α) α (Vec3 α) := ⟨fun a s => ⟨a.x * s, a.y * s, a.z * s⟩⟩
@[inline] instance : HMul α (Vec3 α) (Vec3 α) := ⟨fun s a => ⟨s * a.x, s * a.y, s * a.z⟩⟩
@[inline] instance : HDiv (Vec3 α) α (Vec3 α) := ⟨fun a s => ⟨a.x / s, a.y / s, a.z / s⟩⟩

@[inline] def dot (a b : Vec3 α) : α := a.x * b.x + a.y * b.y + a.z * b.z

@[inline] def cross (a b : Vec3 α) : Vec3 α :=
  ⟨a.y * b.z - b.y * a.z, a.z * b.x - b.z * a.x, a.x * b.y - b.x * a.y⟩

@[inline] def lengthSquared (v : Vec3 α) : α := v.dot v
@[inline] def length (v : Vec3 α) : α := Scalar.sqrt v.lengthSquared

@[inline] def normalize (v : Vec3 α) : Vec3 α := v * ((1.0 : α) / v.length)

@[inline] def lesser (a b : Vec3 α) : Vec3 α :=
  ⟨Scalar.lesser a.x b.x, Scalar.lesser a.y b.y, Scalar.lesser a.z b.z⟩

@[inline] def greater (a b : Vec3 α) : Vec3 α :=
  ⟨Scalar.greater a.x b.x, Scalar.greater a.y b.y, Scalar.greater a.z b.z⟩

@[inline] def largest (v : Vec3 α) : α := Scalar.greater v.x (Scalar.greater v.y v.z)

@[inline] def isFinite (v : Vec3 α) : Bool :=
  Scalar.isFinite v.x && Scalar.isFinite v.y && Scalar.isFinite v.z

end Vec3

namespace Vec4

@[inline] def splat {α : Type} (s : α) : Vec4 α := ⟨s, s, s, s⟩

@[inline] def head {α : Type} (v : Vec4 α) : Vec3 α := ⟨v.x, v.y, v.z⟩

variable {α : Type} [Scalar α]

@[inline] def zero : Vec4 α := splat 0.0

@[inline] instance : Add (Vec4 α) :=
  ⟨fun a b => ⟨a.x + b.x, a.y + b.y, a.z + b.z, a.w + b.w⟩⟩
@[inline] instance : HMul (Vec4 α) α (Vec4 α) := ⟨fun a s => ⟨a.x * s, a.y * s, a.z * s, a.w * s⟩⟩

/-- The length, summing the first with the third and the second with the fourth square. -/
@[inline] def length (v : Vec4 α) : α :=
  Scalar.sqrt ((v.x * v.x + v.z * v.z) + (v.y * v.y + v.w * v.w))

@[inline] def isFinite (v : Vec4 α) : Bool :=
  Scalar.isFinite v.x && Scalar.isFinite v.y && Scalar.isFinite v.z && Scalar.isFinite v.w

end Vec4

end TileTracer
