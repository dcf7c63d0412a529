import TileTracer.Geometry.Primitive

namespace TileTracer.Primitive

variable {α : Type} [Scalar α]

section Sphere

variable (center : Vec3 α) (radius : α) (ray : Ray α)

/-- Half of the linear coefficient, with its sign turned. -/
def sphereHalf : α := ray.direction.dot (center - ray.origin)

def sphereDiscriminant : α :=
  sphereHalf center ray * sphereHalf center ray -
    ray.direction.lengthSquared * ((center - ray.origin).lengthSquared - radius * radius)

def sphereNear : α :=
  (sphereHalf center ray - Scalar.sqrt (sphereDiscriminant center radius ray)) /
    ray.direction.lengthSquared

def sphereFar : α :=
  (sphereHalf center ray + Scalar.sqrt (sphereDiscriminant center radius ray)) /
    ray.direction.lengthSquared

theorem sphereRoot_eq (w : Window α) :
    sphereRoot center radius ray w =
      if sphereDiscriminant center radius ray < 0.0 then none
      else if w.surrounds (sphereNear center radius ray) then some (sphereNear center radius ray)
      else if w.surrounds (sphereFar center radius ray) then some (sphereFar center radius ray)
      else none := rfl

structure SphereMet (w : Window α) (t : α) : Prop where
  discriminant : ¬ sphereDiscriminant center radius ray < 0.0
  root : t = sphereNear center radius ray ∨ t = sphereFar center radius ray
  inside : w.surrounds t = true

theorem met_of_sphereRoot {center : Vec3 α} {radius t : α} {ray : Ray α} {w : Window α}
    (h : sphereRoot center radius ray w = some t) : SphereMet center radius ray w t := by
  rw [sphereRoot_eq] at h
  split at h
  · cases h
  · next hdiscriminant =>
    split at h
    · next hnear =>
      cases h
      exact ⟨hdiscriminant, .inl rfl, hnear⟩
    · split at h
      · next hfar =>
        cases h
        exact ⟨hdiscriminant, .inr rfl, hfar⟩
      · cases h

end Sphere

section Triangle

variable (a b c : Vec3 α) (ray : Ray α)

/-- The volume spanned by the edges and the direction; near zero, the triangle is seen edge-on. -/
def triangleDet : α := (b - a).dot (ray.direction.cross (c - a))

def triangleU : α :=
  (1.0 : α) / triangleDet a b c ray * (ray.origin - a).dot (ray.direction.cross (c - a))

def triangleV : α :=
  (1.0 : α) / triangleDet a b c ray * ray.direction.dot ((ray.origin - a).cross (b - a))

def triangleT : α :=
  (1.0 : α) / triangleDet a b c ray * (c - a).dot ((ray.origin - a).cross (b - a))

def triangleHit (owner : Nat) : Hit α :=
  .facing ray (triangleT a b c ray) (triangleT a b c ray) ((b - a).cross (c - a)).normalize
    ⟨triangleU a b c ray, triangleV a b c ray⟩ owner

/-- What a triangle that is met has passed. -/
structure TriangleMet (w : Window α) : Prop where
  det : ¬ Scalar.abs (triangleDet a b c ray) < 1e-8
  u_nonneg : (0.0 : α) ≤ triangleU a b c ray
  u_le : triangleU a b c ray ≤ (1.0 : α)
  v_nonneg : ¬ triangleV a b c ray < (0.0 : α)
  sum_le : ¬ (1.0 : α) < triangleU a b c ray + triangleV a b c ray
  inside : w.surrounds (triangleT a b c ray) = true

theorem intersectTriangle_eq (owner : Nat) (w : Window α) :
    intersectTriangle a b c owner ray w =
      if Scalar.abs (triangleDet a b c ray) < 1e-8 then none
      else if !((0.0 : α) ≤ triangleU a b c ray && triangleU a b c ray ≤ (1.0 : α)) then none
      else if triangleV a b c ray < (0.0 : α) ||
          (1.0 : α) < triangleU a b c ray + triangleV a b c ray then none
      else if w.surrounds (triangleT a b c ray) then some (triangleHit a b c ray owner)
      else none := rfl

theorem intersectTriangle_eq_some_iff {a b c : Vec3 α} {ray : Ray α} {owner : Nat} {w : Window α}
    {h : Hit α} :
    intersectTriangle a b c owner ray w = some h ↔
      TriangleMet a b c ray w ∧ h = triangleHit a b c ray owner := by
  rw [intersectTriangle_eq]
  constructor
  · intro hhit
    split at hhit
    · cases hhit
    · next hdet =>
      split at hhit
      · cases hhit
      · next hu =>
        split at hhit
        · cases hhit
        · next hv =>
          split at hhit
          · next hin =>
            simp only [Bool.not_eq_true, Bool.not_eq_false', Bool.and_eq_true,
              decide_eq_true_eq] at hu
            simp only [Bool.or_eq_true, decide_eq_true_eq, not_or] at hv
            exact ⟨⟨hdet, hu.1, hu.2, hv.1, hv.2, hin⟩, (Option.some.inj hhit).symm⟩
          · cases hhit
  · rintro ⟨hmet, rfl⟩
    simp [hmet.det, hmet.u_nonneg, hmet.u_le, hmet.v_nonneg, hmet.sum_le, hmet.inside]

end Triangle

end TileTracer.Primitive
