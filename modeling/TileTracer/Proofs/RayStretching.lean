import TileTracer.Proofs.ExactGeometry
import TileTracer.Proofs.ExactScaling

/-!
The direction of a ray may have any length. In exact arithmetic a longer direction shortens the
parameters and changes nothing else about a hit, on spheres, volumes and triangles alike, except
that a triangle is taken to be seen edge-on below a cutoff that does not grow with the direction.
-/

namespace TileTracer

open Scalar OrderedScalar

section Generic

variable {α : Type} [Scalar α]

def Ray.stretch (ray : Ray α) (k : α) : Ray α := ⟨ray.origin, k * ray.direction⟩

/-- The window of a ray that is `k` times as long. -/
def Window.shrink (w : Window α) (k : α) : Window α := ⟨w.lower / k, w.upper / k⟩

/-- The hit of a ray that is `k` times as long. -/
def Hit.shrink (h : Hit α) (k : α) : Hit α := { h with t := h.t / k, tExit := h.tExit / k }

/-- A triangle whose determinant lies below the cutoff. -/
def Primitive.EdgeOn (p : Primitive α) (ray : Ray α) : Prop :=
  match p.solid with
  | .triangle a b c => Scalar.abs (triangleDet a b c ray) < 1e-8
  | _ => False

theorem Primitive.EdgeOn.intersect_eq_none {p : Primitive α} {ray : Ray α} (h : p.EdgeOn ray)
    (w : Window α) : p.intersect ray w = none := by
  rcases p with ⟨solid, owner⟩
  cases solid with
  | sphere center radius => exact h.elim
  | triangle a b c => exact (intersectTriangle_eq a b c ray owner w).trans (if_pos h)
  | volume bounds => exact h.elim

end Generic

variable {k : Factor} {ray : Ray Exact} {w : Window Exact} {t t' : Exact}

open Exact

namespace Window

theorem shrink_eq (w : Window Exact) (k : Factor) :
    w.shrink (ofFactor k) = ⟨k⁻¹ • w.lower, k⁻¹ • w.upper⟩ := by
  rw [shrink, div_ofFactor, div_ofFactor]

theorem surrounds_shrink (w : Window Exact) (k : Factor) (t : Exact) :
    (w.shrink (ofFactor k)).surrounds (k⁻¹ • t) = w.surrounds t := by
  rw [shrink_eq, surrounds, surrounds]
  simp only [smul_lt_smul_iff]

/-- What is done to a shrunk window step by step is done to the window, and shrunk in the end. -/
theorem bind_shrink {β : Type} {o : Option (Window Exact)} {f f' : Window Exact → Option β}
    {g : β → β} (h : ∀ v : Window Exact, f' (v.shrink (ofFactor k)) = (f v).map g) :
    (o.map (·.shrink (ofFactor k))).bind f' = (o.bind f).map g := by
  cases o with
  | none => rfl
  | some v => exact h v

end Window

namespace Ray

theorem stretch_direction (ray : Ray Exact) (k : Factor) :
    (ray.stretch (ofFactor k)).direction = k • ray.direction := by
  refine Vec3.ext_along fun axis => ?_
  rw [Vec3.along_scaled, ← ofFactor_mul]
  cases axis <;> rfl

theorem stretch_at (ray : Ray Exact) (k : Factor) (t : Exact) :
    (ray.stretch (ofFactor k)).at (k⁻¹ • t) = ray.at t := by
  refine Vec3.ext_along fun axis => ?_
  rw [along_at, along_at, stretch_direction, Vec3.along_scaled, mul_smul_right, smul_mul,
    smul_inv_smul]
  rfl

end Ray

theorem Hit.facing_stretch (ray : Ray Exact) (k : Factor) (t tExit : Exact) (outward : Vec3 Exact)
    (uv : Vec2 Exact) (owner : Nat) :
    Hit.facing (ray.stretch (ofFactor k)) (k⁻¹ • t) (k⁻¹ • tExit) outward uv owner =
      (Hit.facing ray t tExit outward uv owner).shrink (ofFactor k) := by
  unfold facing shrink
  simp only [Ray.stretch_direction, Ray.stretch_at, Vec3.smul_dot, smul_lt_zero_iff, div_ofFactor]

namespace Primitive

/-! ## Spheres -/

section Sphere

variable (center : Vec3 Exact) (radius : Exact) (ray : Ray Exact) (k : Factor)

theorem sphereHalf_stretch :
    sphereHalf center (ray.stretch (ofFactor k)) = k • sphereHalf center ray := by
  unfold sphereHalf
  rw [Ray.stretch_direction, Vec3.smul_dot]
  rfl

theorem sphereDiscriminant_stretch :
    sphereDiscriminant center radius (ray.stretch (ofFactor k)) =
      (k * k) • sphereDiscriminant center radius ray := by
  unfold sphereDiscriminant
  rw [sphereHalf_stretch, Ray.stretch_direction, Vec3.smul_lengthSquared, smul_mul_smul, smul_mul,
    smul_sub]
  rfl

theorem sphereNear_stretch :
    sphereNear center radius (ray.stretch (ofFactor k)) = k⁻¹ • sphereNear center radius ray := by
  unfold sphereNear
  rw [sphereHalf_stretch, sphereDiscriminant_stretch, sqrt_smul, Ray.stretch_direction,
    Vec3.smul_lengthSquared, ← smul_sub, smul_div_smul]

theorem sphereFar_stretch :
    sphereFar center radius (ray.stretch (ofFactor k)) = k⁻¹ • sphereFar center radius ray := by
  unfold sphereFar
  rw [sphereHalf_stretch, sphereDiscriminant_stretch, sqrt_smul, Ray.stretch_direction,
    Vec3.smul_lengthSquared, ← smul_add, smul_div_smul]

theorem sphereRoot_stretch (w : Window Exact) :
    sphereRoot center radius (ray.stretch (ofFactor k)) (w.shrink (ofFactor k)) =
      (sphereRoot center radius ray w).map (k⁻¹ • ·) := by
  rw [sphereRoot_eq, sphereRoot_eq, sphereDiscriminant_stretch, sphereNear_stretch,
    sphereFar_stretch, Window.surrounds_shrink, Window.surrounds_shrink]
  simp only [smul_lt_zero_iff, apply_ite (Option.map _), Option.map_none, Option.map_some]

theorem intersectSphere_stretch (owner : Nat) (w : Window Exact) :
    intersectSphere center radius owner (ray.stretch (ofFactor k)) (w.shrink (ofFactor k)) =
      (intersectSphere center radius owner ray w).map (·.shrink (ofFactor k)) := by
  unfold intersectSphere
  rw [sphereRoot_stretch, Option.map_map, Option.map_map]
  refine congrArg (Option.map · _) (funext fun t => ?_)
  simp only [Function.comp_apply, Ray.stretch_at, Hit.facing_stretch]

end Sphere

/-! ## Triangles -/

section Triangle

variable (a b c : Vec3 Exact) (ray : Ray Exact) (k : Factor)

theorem triangleDet_stretch :
    triangleDet a b c (ray.stretch (ofFactor k)) = k • triangleDet a b c ray := by
  unfold triangleDet
  rw [Ray.stretch_direction, Vec3.smul_cross, Vec3.dot_smul]

theorem triangleU_stretch : triangleU a b c (ray.stretch (ofFactor k)) = triangleU a b c ray := by
  unfold triangleU
  rw [triangleDet_stretch, Ray.stretch_direction, Vec3.smul_cross, Vec3.dot_smul, Exact.div_smul,
    mul_smul_right, smul_mul, smul_inv_smul]
  rfl

theorem triangleV_stretch : triangleV a b c (ray.stretch (ofFactor k)) = triangleV a b c ray := by
  unfold triangleV
  rw [triangleDet_stretch, Ray.stretch_direction, Vec3.smul_dot, Exact.div_smul, mul_smul_right,
    smul_mul, smul_inv_smul]
  rfl

theorem triangleT_stretch :
    triangleT a b c (ray.stretch (ofFactor k)) = k⁻¹ • triangleT a b c ray := by
  unfold triangleT
  rw [triangleDet_stretch, Exact.div_smul, smul_mul]
  rfl

theorem triangleHit_stretch (owner : Nat) :
    triangleHit a b c (ray.stretch (ofFactor k)) owner =
      (triangleHit a b c ray owner).shrink (ofFactor k) := by
  unfold triangleHit
  rw [triangleU_stretch, triangleV_stretch, triangleT_stretch, Hit.facing_stretch]

theorem intersectTriangle_stretch (owner : Nat) (w : Window Exact)
    (hcutoff : Scalar.abs (triangleDet a b c (ray.stretch (ofFactor k))) < 1e-8 ↔
      Scalar.abs (triangleDet a b c ray) < 1e-8) :
    intersectTriangle a b c owner (ray.stretch (ofFactor k)) (w.shrink (ofFactor k)) =
      (intersectTriangle a b c owner ray w).map (·.shrink (ofFactor k)) := by
  rw [intersectTriangle_eq, intersectTriangle_eq, triangleU_stretch, triangleV_stretch,
    triangleT_stretch, Window.surrounds_shrink, triangleHit_stretch]
  simp only [hcutoff, apply_ite (Option.map _), Option.map_none, Option.map_some]

end Triangle

end Primitive

/-! ## Volumes -/

namespace Box

variable (box : Box Exact) (ray : Ray Exact) (k : Factor) (axis : Axis) (w : Window Exact)

theorem planes_stretch :
    box.planes (ray.stretch (ofFactor k)) axis =
      (k⁻¹ • (box.planes ray axis).1, k⁻¹ • (box.planes ray axis).2) := by
  unfold planes
  simp only [Ray.stretch_direction, Vec3.along_scaled, Exact.div_smul, mul_smul_right,
    smul_lt_zero_iff]
  split <;> rfl

theorem clip_stretch :
    box.clip (ray.stretch (ofFactor k)) axis (w.shrink (ofFactor k)) =
      (box.clip ray axis w).map (·.shrink (ofFactor k)) := by
  rw [clip_eq, clip_eq, planes_stretch, Window.shrink_eq]
  simp only [lesser_smul, greater_smul, smul_lt_smul_iff, apply_ite (Option.map _),
    Option.map_none, Option.map_some, Window.shrink_eq]

theorem slabs_stretch :
    box.intersect (ray.stretch (ofFactor k)) (w.shrink (ofFactor k)) =
      (box.intersect ray w).map (·.shrink (ofFactor k)) := by
  unfold intersect
  simp only [bind, clip_stretch]
  refine Window.bind_shrink fun v => ?_
  rw [clip_stretch]
  exact Window.bind_shrink fun v => clip_stretch box ray k .z v

end Box

namespace Primitive

theorem intersectVolume_stretch (bounds : Box Exact) (owner : Nat) (ray : Ray Exact) (k : Factor)
    (w : Window Exact) :
    intersectVolume bounds owner (ray.stretch (ofFactor k)) (w.shrink (ofFactor k)) =
      (intersectVolume bounds owner ray w).map (·.shrink (ofFactor k)) := by
  unfold intersectVolume
  simp only [bind, Box.slabs_stretch]
  refine Window.bind_shrink fun v => ?_
  rw [Window.shrink_eq, Ray.stretch_direction, Vec3.smul_normalize]
  simp only [smul_le_smul_iff, Hit.facing_stretch, apply_ite (Option.map _), Option.map_none,
    Option.map_some]

theorem intersect_stretch_factor (p : Primitive Exact) (ray : Ray Exact) (k : Factor)
    (w : Window Exact) (hcutoff : p.EdgeOn (ray.stretch (ofFactor k)) ↔ p.EdgeOn ray) :
    p.intersect (ray.stretch (ofFactor k)) (w.shrink (ofFactor k)) =
      (p.intersect ray w).map (·.shrink (ofFactor k)) := by
  rcases p with ⟨solid, owner⟩
  cases solid with
  | sphere center radius => exact intersectSphere_stretch center radius ray k owner w
  | triangle a b c => exact intersectTriangle_stretch a b c ray k owner w hcutoff
  | volume bounds => exact intersectVolume_stretch bounds owner ray k w

/-- However long the direction of a ray is, it gives the same hits at parameters divided by its
length, unless the cutoff tells the two rays apart; below the cutoff there is no hit. -/
theorem intersect_stretch {k : Exact} (hk : 0.0 < k) (hfinite : isFinite k = true)
    (p : Primitive Exact) (ray : Ray Exact) (w : Window Exact) :
    ((p.EdgeOn (ray.stretch k) ↔ p.EdgeOn ray) →
        p.intersect (ray.stretch k) (w.shrink k) = (p.intersect ray w).map (·.shrink k)) ∧
      (p.EdgeOn ray → p.intersect ray w = none) := by
  obtain ⟨x, hx⟩ := isFinite_iff.mp hfinite
  cases hx with
  | finite x s hs =>
      have hpos : 0 < x := (HasValue.zero.lt_iff (.finite x s hs)).mp hk
      obtain rfl : s = false := hs.2 hpos
      exact ⟨intersect_stretch_factor p ray ⟨x, hpos⟩ w, fun h => h.intersect_eq_none w⟩

/-! ## A small triangle -/

noncomputable section

/-- The corners of half a square of side `2⁻¹⁴`. -/
def smallCorner : Vec3 Exact := ⟨0.0, 0.0, -1.0⟩

def smallRight : Vec3 Exact := ⟨6.103515625e-5, 0.0, -1.0⟩

def smallTop : Vec3 Exact := ⟨0.0, 6.103515625e-5, -1.0⟩

def smallTriangle : Primitive Exact := ⟨.triangle smallCorner smallRight smallTop, 0⟩

def rayThrough : Ray Exact := ⟨⟨1.52587890625e-5, 1.52587890625e-5, 0.0⟩, ⟨0.0, 0.0, -4.0⟩⟩

end

def straight : Place
  | .x => 0
  | .y => 0
  | .z => -4.0

theorem smallCorner_values : smallCorner.HasValues (.of 0 0 (-1)) :=
  Axis.forall_iff.mpr ⟨.zero, .zero, HasValue.one.neg⟩

theorem smallRight_values : smallRight.HasValues (.of 6.103515625e-5 0 (-1)) :=
  Axis.forall_iff.mpr ⟨.ofScientific _ _ _, .zero, HasValue.one.neg⟩

theorem smallTop_values : smallTop.HasValues (.of 0 6.103515625e-5 (-1)) :=
  Axis.forall_iff.mpr ⟨.zero, .ofScientific _ _ _, HasValue.one.neg⟩

theorem rayThrough_values :
    rayThrough.origin.HasValues (.of 1.52587890625e-5 1.52587890625e-5 0) ∧
      rayThrough.direction.HasValues straight :=
  ⟨Axis.forall_iff.mpr ⟨.ofScientific _ _ _, .ofScientific _ _ _, .zero⟩,
    Axis.forall_iff.mpr ⟨.zero, .zero, (HasValue.ofScientific 40 true 1).neg⟩⟩

theorem rayThrough_stretch_values {k : Exact} {x : ℝ} (hk : k.HasValue x) :
    (rayThrough.stretch k).direction.HasValues (x • straight) := by
  intro axis
  have hvalue := hk.mul (rayThrough_values.2 axis)
  cases axis <;> exact hvalue

theorem smallTriangle_edgeOn_iff {ray : Ray Exact} {x : ℝ}
    (hd : ray.direction.HasValues (x • straight)) (hx : 0 < x) :
    smallTriangle.EdgeOn ray ↔ x < 0.67108864 := by
  have hdet := triangleDet_value smallCorner_values smallRight_values smallTop_values hd
  refine (hdet.abs.lt_iff (.ofScientific 1 true 8)).trans ?_
  simp only [Place.dot, Place.cross, Place.of, Pi.sub_apply, Pi.smul_apply, straight, smul_eq_mul]
  norm_num [abs_of_pos hx]
  constructor <;> intro h <;> linarith

theorem not_edgeOn_rayThrough : ¬ smallTriangle.EdgeOn rayThrough := by
  have hd : rayThrough.direction.HasValues ((1 : ℝ) • straight) := by
    rw [one_smul]
    exact rayThrough_values.2
  rw [smallTriangle_edgeOn_iff hd one_pos]
  norm_num

theorem rayThrough_met : ∃ h, smallTriangle.intersect rayThrough (.startingAt 0.0) = some h := by
  obtain ⟨horigin, hdirection⟩ := rayThrough_values
  obtain ⟨hu, hv, ht⟩ := triangle_values smallCorner_values smallRight_values smallTop_values
    horigin hdirection (by
      simp only [Place.dot, Place.cross, Place.of, Pi.sub_apply, straight]
      norm_num)
  simp only [Place.dot, Place.cross, Place.of, Pi.sub_apply, straight] at hu hv ht
  norm_num at hu hv ht
  have hsum := hu.add hv
  norm_num at hsum
  refine ⟨_, intersectTriangle_eq_some_iff.mpr ⟨⟨not_edgeOn_rayThrough, ?_, ?_, ?_, ?_, ?_⟩, rfl⟩⟩
  · exact (HasValue.zero.le_iff hu).mpr (by norm_num)
  · exact (hu.le_iff .one).mpr (by norm_num)
  · exact mt (hv.lt_iff .zero).mp (by norm_num)
  · exact mt (HasValue.one.lt_iff hsum).mp (by norm_num)
  · exact Window.surrounds_eq_true.mpr ⟨(HasValue.zero.lt_iff ht).mpr (by norm_num),
      (isFinite_eq_true.mp ht.isFinite).2⟩

/-- Stretching a direction by one quarter hides a triangle that the ray went straight through. -/
theorem quarter_stretch_misses :
    (0.0 : Exact) < 0.25 ∧ isFinite (0.25 : Exact) = true ∧
      (∃ h, smallTriangle.intersect rayThrough (.startingAt 0.0) = some h) ∧
      smallTriangle.intersect (rayThrough.stretch 0.25)
        ((Window.startingAt 0.0).shrink 0.25) = none := by
  have hquarter := HasValue.ofScientific 25 true 2
  refine ⟨(HasValue.zero.lt_iff hquarter).mpr (by norm_num), hquarter.isFinite, rayThrough_met, ?_⟩
  refine EdgeOn.intersect_eq_none ?_ _
  rw [smallTriangle_edgeOn_iff (rayThrough_stretch_values hquarter) (by norm_num)]
  norm_num

theorem intersect_stretch_double :
    (0.0 : Exact) < 2.0 ∧ isFinite (2.0 : Exact) = true ∧
      (∃ h, smallTriangle.intersect rayThrough (.startingAt 0.0) = some h ∧
        smallTriangle.intersect (rayThrough.stretch 2.0) ((Window.startingAt 0.0).shrink 2.0) =
          some (h.shrink 2.0)) ∧
      smallTriangle.EdgeOn (rayThrough.stretch 0.25) ∧
      smallTriangle.intersect (rayThrough.stretch 0.25) (.startingAt 0.0) = none := by
  have htwo := HasValue.ofScientific 20 true 1
  have hquarter := HasValue.ofScientific 25 true 2
  have hpos : (0.0 : Exact) < 2.0 := (HasValue.zero.lt_iff htwo).mpr (by norm_num)
  have hdouble : ¬ smallTriangle.EdgeOn (rayThrough.stretch 2.0) := by
    rw [smallTriangle_edgeOn_iff (rayThrough_stretch_values htwo) (by norm_num)]
    norm_num
  have hedge : smallTriangle.EdgeOn (rayThrough.stretch 0.25) := by
    rw [smallTriangle_edgeOn_iff (rayThrough_stretch_values hquarter) (by norm_num)]
    norm_num
  obtain ⟨h, hhit⟩ := rayThrough_met
  have hscaled := (intersect_stretch hpos htwo.isFinite smallTriangle rayThrough
    (.startingAt 0.0)).1 (iff_of_false hdouble not_edgeOn_rayThrough)
  rw [hhit, Option.map_some] at hscaled
  exact ⟨hpos, htwo.isFinite, ⟨h, hhit, hscaled⟩, hedge,
    (intersect_stretch hpos htwo.isFinite smallTriangle (rayThrough.stretch 0.25)
      (.startingAt 0.0)).2 hedge⟩

end Primitive

end TileTracer
