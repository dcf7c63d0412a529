import Mathlib.Tactic.FieldSimp
import Mathlib.Tactic.Linarith
import TileTracer.Proofs.HitFormulas
import TileTracer.Proofs.SlabTest

namespace TileTracer

open Scalar OrderedScalar

abbrev Place := Axis → ℝ

namespace Place

def of (x y z : ℝ) : Place
  | .x => x
  | .y => y
  | .z => z

def dot (u v : Place) : ℝ := u .x * v .x + u .y * v .y + u .z * v .z

def cross (u v : Place) : Place
  | .x => u .y * v .z - v .y * u .z
  | .y => u .z * v .x - v .z * u .x
  | .z => u .x * v .y - v .x * u .y

variable {u : Place} {r : ℝ}

theorem sq_le_dot_self (u : Place) (axis : Axis) : u axis * u axis ≤ dot u u := by
  have hx := mul_self_nonneg (u .x)
  have hy := mul_self_nonneg (u .y)
  have hz := mul_self_nonneg (u .z)
  unfold dot
  cases axis <;> linarith

theorem dot_self_pos {axis : Axis} (h : u axis ≠ 0) : 0 < dot u u :=
  (mul_self_pos.mpr h).trans_le (sq_le_dot_self u axis)

theorem abs_le_of_dot_self (h : dot u u = r * r) (axis : Axis) : |u axis| ≤ |r| :=
  abs_le_iff_mul_self_le.mpr (h ▸ sq_le_dot_self u axis)

theorem on_sphere {o d c : Place} {x s : ℝ} (hd : dot d d ≠ 0)
    (hs : s * s = dot d (c - o) * dot d (c - o) - dot d d * (dot (c - o) (c - o) - r * r))
    (hx : x = (dot d (c - o) + s) / dot d d) :
    dot (o + x • d - c) (o + x • d - c) = r * r := by
  have hroot : dot d d * x = dot d (c - o) + s := by
    rw [hx, mul_div_cancel₀ _ hd]
  have hexpand : dot (o + x • d - c) (o + x • d - c) =
      dot d d * x * x - 2 * dot d (c - o) * x + dot (c - o) (c - o) := by
    simp only [dot, Pi.add_apply, Pi.sub_apply, Pi.smul_apply, smul_eq_mul]
    ring
  have hscaled : dot d d * (dot (o + x • d - c) (o + x • d - c) - r * r) = 0 := by
    rw [hexpand]
    linear_combination (dot d d * x - dot d (c - o) + s) * hroot + hs
  exact sub_eq_zero.mp ((mul_eq_zero.mp hscaled).resolve_left hd)

/-- Cramer's rule for the plane of a triangle with corner `a` and edges `e₁` and `e₂`. -/
theorem on_plane {o d a e₁ e₂ : Place} {det : ℝ} (hdet : det = dot e₁ (cross d e₂)) (hne : det ≠ 0) :
    o + (1 / det * dot e₂ (cross (o - a) e₁)) • d =
      a + (1 / det * dot (o - a) (cross d e₂)) • e₁ + (1 / det * dot d (cross (o - a) e₁)) • e₂ := by
  funext axis
  have hcramer : det * (o axis - a axis) + dot e₂ (cross (o - a) e₁) * d axis =
      dot (o - a) (cross d e₂) * e₁ axis + dot d (cross (o - a) e₁) * e₂ axis := by
    rw [hdet]
    cases axis <;> simp only [dot, cross, Pi.sub_apply] <;> ring
  simp only [Pi.add_apply, Pi.smul_apply, smul_eq_mul]
  field_simp
  linarith

theorem between_corners {u v : ℝ} (hu : 0 ≤ u) (hv : 0 ≤ v) (hsum : u + v ≤ 1) (a b c : ℝ) :
    min (min a b) c ≤ a + u * (b - a) + v * (c - a) ∧
      a + u * (b - a) + v * (c - a) ≤ max (max a b) c := by
  have hrest : 0 ≤ 1 - u - v := by linarith
  have hweights : a + u * (b - a) + v * (c - a) = (1 - u - v) * a + u * b + v * c := by ring
  rw [hweights]
  constructor
  · have hlow : (1 - u - v) * min (min a b) c + u * min (min a b) c + v * min (min a b) c ≤
        (1 - u - v) * a + u * b + v * c := by
      gcongr <;> simp
    linarith
  · have hhigh : (1 - u - v) * a + u * b + v * c ≤
        (1 - u - v) * max (max a b) c + u * max (max a b) c + v * max (max a b) c := by
      gcongr <;> simp
    linarith

end Place

/-- The components are finite and stand for these coordinates. -/
def Vec3.HasValues (v : Vec3 Exact) (u : Place) : Prop := ∀ axis, (v.along axis).HasValue (u axis)

namespace Vec3

variable {v v₁ v₂ : Vec3 Exact} {u u₁ u₂ : Place}

theorem exists_values (h : v.isFinite = true) : ∃ u, v.HasValues u := by
  choose u hu using fun axis => Exact.isFinite_iff.mp (isFinite_iff.mp h axis)
  exact ⟨u, hu⟩

namespace HasValues

theorem isFinite (h : v.HasValues u) : v.isFinite = true :=
  isFinite_iff.mpr fun axis => (h axis).isFinite

theorem sub (h₁ : v₁.HasValues u₁) (h₂ : v₂.HasValues u₂) : (v₁ - v₂).HasValues (u₁ - u₂) :=
  fun axis => (along_sub v₁ v₂ axis).symm ▸ (h₁ axis).sub (h₂ axis)

theorem add (h₁ : v₁.HasValues u₁) (h₂ : v₂.HasValues u₂) : (v₁ + v₂).HasValues (u₁ + u₂) :=
  fun axis => (along_add v₁ v₂ axis).symm ▸ (h₁ axis).add (h₂ axis)

theorem splat {a : Exact} {x : ℝ} (h : a.HasValue x) : (splat a).HasValues fun _ => x :=
  fun axis => (along_splat a axis).symm ▸ h

theorem lesser (h₁ : v₁.HasValues u₁) (h₂ : v₂.HasValues u₂) :
    (v₁.lesser v₂).HasValues fun axis => min (u₁ axis) (u₂ axis) :=
  fun axis => (along_lesser v₁ v₂ axis).symm ▸ (h₁ axis).lesser (h₂ axis)

theorem greater (h₁ : v₁.HasValues u₁) (h₂ : v₂.HasValues u₂) :
    (v₁.greater v₂).HasValues fun axis => max (u₁ axis) (u₂ axis) :=
  fun axis => (along_greater v₁ v₂ axis).symm ▸ (h₁ axis).greater (h₂ axis)

theorem dot (h₁ : v₁.HasValues u₁) (h₂ : v₂.HasValues u₂) :
    (v₁.dot v₂).HasValue (Place.dot u₁ u₂) :=
  (((h₁ .x).mul (h₂ .x)).add ((h₁ .y).mul (h₂ .y))).add ((h₁ .z).mul (h₂ .z))

theorem cross (h₁ : v₁.HasValues u₁) (h₂ : v₂.HasValues u₂) :
    (v₁.cross v₂).HasValues (Place.cross u₁ u₂)
  | .x => ((h₁ .y).mul (h₂ .z)).sub ((h₂ .y).mul (h₁ .z))
  | .y => ((h₁ .z).mul (h₂ .x)).sub ((h₂ .z).mul (h₁ .x))
  | .z => ((h₁ .x).mul (h₂ .y)).sub ((h₂ .x).mul (h₁ .y))

theorem ray_at {ray : Ray Exact} {t : Exact} {o d : Place} {x : ℝ} (ho : ray.origin.HasValues o)
    (hd : ray.direction.HasValues d) (ht : t.HasValue x) : (ray.at t).HasValues (o + x • d) :=
  fun axis => (Ray.along_at ray t axis).symm ▸ (ho axis).add (ht.mul (hd axis))

end HasValues

end Vec3

theorem Ray.Proper.exists_values {ray : Ray Exact} (h : ray.Proper) :
    ∃ o d, ray.origin.HasValues o ∧ ray.direction.HasValues d ∧ 0 < Place.dot d d := by
  obtain ⟨o, ho⟩ := Vec3.exists_values h.origin
  obtain ⟨d, hd⟩ := Vec3.exists_values h.direction
  obtain ⟨axis, hne⟩ := h.nonzero
  rw [(hd axis).lt_iff .zero, Exact.HasValue.zero.lt_iff (hd axis)] at hne
  exact ⟨o, d, ho, hd, Place.dot_self_pos (hne.elim LT.lt.ne LT.lt.ne')⟩

theorem Ray.Proper.invertible {ray : Ray Exact} (h : ray.Proper) : ray.Invertible := by
  intro axis
  obtain ⟨d, hd⟩ := Exact.isFinite_iff.mp (Vec3.isFinite_iff.mp h.direction axis)
  by_cases hzero : d = 0
  · subst hzero
    generalize ray.direction.along axis = direction at hd ⊢
    cases hd with
    | finite _ s hs =>
        rw [Exact.div_zero .one one_pos hs]
        cases s with
        | false => exact .inr (.inl ((Exact.ranking.lt_iff_of_rank Exact.HasValue.zero.rank rfl).mpr
            EReal.zero_lt_top))
        | true => exact .inl Exact.neg_infinite_lt_zero
  · have hinverse := Exact.HasValue.one.div hd hzero
    rw [hinverse.lt_iff .zero, Exact.HasValue.zero.lt_iff hinverse]
    exact (lt_or_gt_of_ne (one_div_ne_zero hzero)).imp_right .inl

namespace Primitive

variable {a b c : Vec3 Exact} {ray : Ray Exact} {ua ub uc o d : Place}

theorem triangleDet_value (ha : a.HasValues ua) (hb : b.HasValues ub) (hc : c.HasValues uc)
    (hd : ray.direction.HasValues d) :
    (triangleDet a b c ray).HasValue (Place.dot (ub - ua) (Place.cross d (uc - ua))) :=
  (hb.sub ha).dot (hd.cross (hc.sub ha))

/-- The coordinates of the hit in the triangle and on the ray. -/
theorem triangle_values (ha : a.HasValues ua) (hb : b.HasValues ub) (hc : c.HasValues uc)
    (ho : ray.origin.HasValues o) (hd : ray.direction.HasValues d)
    (hne : Place.dot (ub - ua) (Place.cross d (uc - ua)) ≠ 0) :
    (triangleU a b c ray).HasValue (1 / Place.dot (ub - ua) (Place.cross d (uc - ua)) *
        Place.dot (o - ua) (Place.cross d (uc - ua))) ∧
      (triangleV a b c ray).HasValue (1 / Place.dot (ub - ua) (Place.cross d (uc - ua)) *
        Place.dot d (Place.cross (o - ua) (ub - ua))) ∧
      (triangleT a b c ray).HasValue (1 / Place.dot (ub - ua) (Place.cross d (uc - ua)) *
        Place.dot (uc - ua) (Place.cross (o - ua) (ub - ua))) := by
  have hinverse := Exact.HasValue.one.div (triangleDet_value ha hb hc hd) hne
  have hstart := ho.sub ha
  exact ⟨hinverse.mul (hstart.dot (hd.cross (hc.sub ha))),
    hinverse.mul (hd.dot (hstart.cross (hb.sub ha))),
    hinverse.mul ((hc.sub ha).dot (hstart.cross (hb.sub ha)))⟩

end Primitive

namespace Box

variable {box : Box Exact} {p : Vec3 Exact} {l h u : Place}

theorem isNumber_of_isFinite (h : box.isFinite = true) : box.IsNumber := by
  obtain ⟨hlow, hhigh⟩ := Bool.and_eq_true_iff.mp h
  obtain ⟨l, hl⟩ := Vec3.exists_values hlow
  obtain ⟨h, hh⟩ := Vec3.exists_values hhigh
  exact ⟨fun axis => (hl axis).isNumber, fun axis => (hh axis).isNumber⟩

theorem contains_of_values (hlow : box.low.HasValues l) (hhigh : box.high.HasValues h)
    (hp : p.HasValues u) (hin : ∀ axis, l axis ≤ u axis ∧ u axis ≤ h axis) : box.Contains p :=
  ⟨fun axis => ((hlow axis).le_iff (hp axis)).mpr (hin axis).1,
    fun axis => ((hp axis).le_iff (hhigh axis)).mpr (hin axis).2⟩

end Box

end TileTracer
