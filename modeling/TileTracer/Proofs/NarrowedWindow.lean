import TileTracer.Proofs.HitFormulas
import TileTracer.Proofs.ScalarOrder

/-!
When a window is cut off above a number, a primitive keeps its hit if that lies below the number,
up to the parameter at which a volume is left; otherwise it has none.
-/

namespace TileTracer

open Scalar OrderedScalar

/-- The hit with its exit cut off above a limit. -/
def Hit.cutAt {α : Type} [Scalar α] (h : Hit α) (limit : α) : Hit α :=
  { h with tExit := lesser h.tExit limit }

theorem Hit.cutAt_eq_self {α : Type} [Scalar α] {h : Hit α} {limit : α}
    (hcut : lesser h.tExit limit = h.tExit) : h.cutAt limit = h := by
  rw [cutAt, hcut]

namespace Box

variable {α : Type} [Scalar α] {box : Box α} {ray : Ray α} {axis : Axis} {w v : Window α} {m : α}

/-- The parameters of the two planes of one axis, the one that the ray meets first in front. -/
def planes (box : Box α) (ray : Ray α) (axis : Axis) : α × α :=
  let inverse := (1.0 : α) / ray.direction.along axis
  let a := (box.low.along axis - ray.origin.along axis) * inverse
  let b := (box.high.along axis - ray.origin.along axis) * inverse
  if inverse < 0.0 then (b, a) else (a, b)

theorem clip_eq (box : Box α) (ray : Ray α) (axis : Axis) (w : Window α) :
    box.clip ray axis w =
      if lesser (box.planes ray axis).2 w.upper < greater (box.planes ray axis).1 w.lower then none
      else some ⟨greater (box.planes ray axis).1 w.lower,
        lesser (box.planes ray axis).2 w.upper⟩ := rfl

theorem clip_eq_some :
    box.clip ray axis w = some v ↔
      ¬ v.upper < v.lower ∧ v.lower = greater (box.planes ray axis).1 w.lower ∧
        v.upper = lesser (box.planes ray axis).2 w.upper := by
  rw [clip_eq]
  constructor
  · intro h
    split at h
    · cases h
    · next hle =>
      cases h
      exact ⟨hle, rfl, rfl⟩
  · rintro ⟨hle, hlower, hupper⟩
    rw [← hlower, ← hupper, if_neg hle]

theorem intersect_eq_some :
    box.intersect ray w = some v ↔
      ∃ v₁ v₂, box.clip ray .x w = some v₁ ∧ box.clip ray .y v₁ = some v₂ ∧
        box.clip ray .z v₂ = some v := by
  unfold intersect
  simp only [bind, Option.bind_eq_some_iff]
  constructor
  · rintro ⟨v₁, h₁, v₂, h₂, h₃⟩
    exact ⟨v₁, v₂, h₁, h₂, h₃⟩
  · rintro ⟨v₁, v₂, h₁, h₂, h₃⟩
    exact ⟨v₁, h₁, v₂, h₂, h₃⟩

variable [OrderedScalar α]

theorem of_clip_upTo (h : box.clip ray axis (w.upTo m) = some v) :
    ∃ v', box.clip ray axis w = some v' ∧ v = v'.upTo m := by
  obtain ⟨hle, hlower, hupper⟩ := clip_eq_some.mp h
  refine ⟨⟨greater (box.planes ray axis).1 w.lower, lesser (box.planes ray axis).2 w.upper⟩, ?_, ?_⟩
  · refine clip_eq_some.mpr ⟨?_, rfl, rfl⟩
    intro hlt
    rw [hlower, hupper, Window.upTo, ← lesser_assoc] at hle
    exact hle (lesser_lt_of_lt hlt)
  · cases v
    simp only [Window.upTo] at hlower hupper ⊢
    rw [hlower, hupper, lesser_assoc]

theorem clip_upTo (h : box.clip ray axis w = some v) (hle : ¬ lesser v.upper m < v.lower) :
    box.clip ray axis (w.upTo m) = some (v.upTo m) := by
  obtain ⟨_, hlower, hupper⟩ := clip_eq_some.mp h
  refine clip_eq_some.mpr ⟨hle, hlower, ?_⟩
  simp only [Window.upTo]
  rw [hupper, lesser_assoc]

theorem clip_within (hw : w.Bounded) (h : box.clip ray axis w = some v) :
    v.Bounded ∧ w.lower ≤ v.lower ∧ v.upper ≤ w.upper := by
  obtain ⟨_, hlower, hupper⟩ := clip_eq_some.mp h
  have hlow : w.lower ≤ v.lower := hlower ▸ le_greater_right hw.lower
  have hup : v.upper ≤ w.upper := hupper ▸ lesser_le_right hw.upper
  exact ⟨⟨self_le_of_le_right hlow, self_le_of_le_left hup⟩, hlow, hup⟩

theorem of_intersect_upTo (h : box.intersect ray (w.upTo m) = some v) :
    ∃ v', box.intersect ray w = some v' ∧ v = v'.upTo m := by
  obtain ⟨_, _, hx, hy, hz⟩ := intersect_eq_some.mp h
  obtain ⟨v₁, h₁, rfl⟩ := of_clip_upTo hx
  obtain ⟨v₂, h₂, rfl⟩ := of_clip_upTo hy
  obtain ⟨v₃, h₃, rfl⟩ := of_clip_upTo hz
  exact ⟨v₃, intersect_eq_some.mpr ⟨v₁, v₂, h₁, h₂, h₃⟩, rfl⟩

theorem intersect_bounded (hw : w.Bounded) (h : box.intersect ray w = some v) : v.Bounded := by
  obtain ⟨_, _, h₁, h₂, h₃⟩ := intersect_eq_some.mp h
  exact (clip_within (clip_within (clip_within hw h₁).1 h₂).1 h₃).1

theorem intersect_upTo (hw : w.Bounded) (hm : m ≤ m) (h : box.intersect ray w = some v)
    (hlt : v.lower < lesser v.upper m) : box.intersect ray (w.upTo m) = some (v.upTo m) := by
  obtain ⟨v₁, v₂, h₁, h₂, h₃⟩ := intersect_eq_some.mp h
  obtain ⟨hb₁, _, _⟩ := clip_within hw h₁
  obtain ⟨hb₂, hlower₂, hupper₂⟩ := clip_within hb₁ h₂
  obtain ⟨hb, hlower, hupper⟩ := clip_within hb₂ h₃
  -- Each axis only narrows the window, so what is left in the end was left after each of them.
  obtain ⟨hvu, hvm⟩ := (lt_lesser_iff hb.upper hm).mp hlt
  have hlt₂ : v₂.lower < lesser v₂.upper m :=
    lt_of_le_of_lt hlower
      ((lt_lesser_iff hb₂.upper hm).mpr ⟨lt_of_lt_of_le hvu hupper, hvm⟩)
  have hlt₁ : v₁.lower < lesser v₁.upper m := by
    obtain ⟨hvu₂, hvm₂⟩ := (lt_lesser_iff hb₂.upper hm).mp hlt₂
    exact lt_of_le_of_lt hlower₂
      ((lt_lesser_iff hb₁.upper hm).mpr ⟨lt_of_lt_of_le hvu₂ hupper₂, hvm₂⟩)
  exact intersect_eq_some.mpr ⟨v₁.upTo m, v₂.upTo m, clip_upTo h₁ (lt_asymm hlt₁),
    clip_upTo h₂ (lt_asymm hlt₂), clip_upTo h₃ (lt_asymm hlt)⟩

end Box

namespace Primitive

variable {α : Type} [Scalar α] {ray : Ray α} {w : Window α} {m : α}

theorem intersectVolume_eq_some {bounds : Box α} {owner : Nat} {h : Hit α} :
    intersectVolume bounds owner ray w = some h ↔
      ∃ v, bounds.intersect ray w = some v ∧ ¬ v.upper ≤ v.lower ∧
        h = .facing ray v.lower v.upper (-ray.direction.normalize) ⟨0.0, 0.0⟩ owner := by
  unfold intersectVolume
  simp only [bind, Option.bind_eq_some_iff]
  constructor
  · rintro ⟨v, hv, h⟩
    split at h
    · cases h
    · next hle => exact ⟨v, hv, hle, (Option.some.inj h).symm⟩
  · rintro ⟨v, hv, hle, rfl⟩
    exact ⟨v, hv, if_neg hle⟩

/-- The hit, if it lies below a limit, with its exit cut off there. -/
def below (limit : α) (h : Hit α) : Option (Hit α) :=
  if h.t < limit then some (h.cutAt limit) else none

/-- The hits in a narrowed window are those of the full window that lie below its new end. -/
def CutsOff (f : Window α → Option (Hit α)) : Prop :=
  ∀ (w : Window α) (m : α), w.Bounded → m ≤ m → f (w.upTo m) = (f w).bind (below m)

theorem CutsOff.none : CutsOff fun _ => (none : Option (Hit α)) := fun _ _ _ _ => rfl

theorem CutsOff.ite_none {c : Prop} [Decidable c] {f : Window α → Option (Hit α)} (hf : CutsOff f) :
    CutsOff fun w => if c then Option.none else f w := by
  by_cases hc : c
  · simpa only [if_pos hc] using CutsOff.none
  · simpa only [if_neg hc] using hf

variable [OrderedScalar α]

theorem of_intersectVolume_upTo {bounds : Box α} {owner : Nat} {h : Hit α}
    (hhit : intersectVolume bounds owner ray (w.upTo m) = some h) :
    ∃ full, intersectVolume bounds owner ray w = some full ∧ h = full.cutAt m := by
  obtain ⟨_, hbox, hle, rfl⟩ := intersectVolume_eq_some.mp hhit
  obtain ⟨v, hv, rfl⟩ := Box.of_intersect_upTo hbox
  exact ⟨_, intersectVolume_eq_some.mpr ⟨v, hv, mt lesser_le_of_le hle, rfl⟩, rfl⟩

theorem cutsOff_surrounds {h : Hit α} {t : α} (ht : h.t = t) (hexit : h.tExit = t) :
    CutsOff fun w => if w.surrounds t then some h else none := by
  subst ht
  intro w m hw hm
  have hiff := Window.surrounds_upTo (t := h.t) hw hm
  dsimp only
  by_cases hin : w.surrounds h.t = true
  · rw [if_pos hin, Option.bind_some]
    by_cases hlt : h.t < m
    · have hcut : lesser h.tExit m = h.tExit := by
        rw [hexit, lesser_eq_left (le_self_of_lt hlt).1 (lt_asymm hlt)]
      rw [if_pos (hiff.mpr ⟨hin, hlt⟩), below, if_pos hlt, Hit.cutAt_eq_self hcut]
    · rw [if_neg fun hnarrow => hlt (hiff.mp hnarrow).2, below, if_neg hlt]
  · rw [if_neg hin, if_neg fun hnarrow => hin (hiff.mp hnarrow).1, Option.bind_none]

theorem cutsOff_surrounds_or {hitAt : α → Hit α} (ht : ∀ t, (hitAt t).t = t)
    (hexit : ∀ t, (hitAt t).tExit = t) {near far : α} (horder : ¬ far < near) :
    CutsOff fun w => if w.surrounds near then some (hitAt near)
      else if w.surrounds far then some (hitAt far) else none := by
  intro w m hw hm
  have hnear := Window.surrounds_upTo (t := near) hw hm
  have hfar := Window.surrounds_upTo (t := far) hw hm
  dsimp only
  by_cases hin : w.surrounds near = true
  · have hcut := cutsOff_surrounds (ht near) (hexit near) w m hw hm
    simp only [if_pos hin] at hcut ⊢
    by_cases hlt : near < m
    · rw [← hcut, if_pos (hnear.mpr ⟨hin, hlt⟩), if_pos (hnear.mpr ⟨hin, hlt⟩)]
    · -- A far root below the limit would have the near one below it too.
      have hout : ¬ (w.upTo m).surrounds far = true := by
        intro hnarrow
        exact (lt_or_lt (hfar.mp hnarrow).2 (Window.self_le_of_surrounds hin)).elim horder hlt
      rw [← hcut, if_neg hout]
  · have hout : ¬ (w.upTo m).surrounds near = true := fun hnarrow => hin (hnear.mp hnarrow).1
    simp only [if_neg hin, if_neg hout]
    exact cutsOff_surrounds (ht far) (hexit far) w m hw hm

theorem intersectVolume_cutsOff (bounds : Box α) (owner : Nat) (ray : Ray α) :
    CutsOff (intersectVolume bounds owner ray) := by
  intro w m hw hm
  cases hfull : intersectVolume bounds owner ray w with
  | none =>
      rw [Option.bind_none, Option.eq_none_iff_forall_ne_some]
      intro h hh
      obtain ⟨full, hsome, _⟩ := of_intersectVolume_upTo hh
      rw [hfull] at hsome
      cases hsome
  | some full =>
      obtain ⟨v, hv, hle, rfl⟩ := intersectVolume_eq_some.mp hfull
      have hb := Box.intersect_bounded hw hv
      rw [Option.bind_some]
      by_cases hlt : v.lower < m
      · have hleft : v.lower < lesser v.upper m :=
          (lt_lesser_iff hb.upper hm).mpr ⟨lt_of_not_le hb.upper hb.lower hle, hlt⟩
        have hcut := Box.intersect_upTo hw hm hv hleft
        refine Eq.trans ?_ (if_pos hlt).symm
        exact intersectVolume_eq_some.mpr ⟨_, hcut, fun h => not_lt_of_le h hleft, rfl⟩
      · refine Eq.trans ?_ (if_neg hlt).symm
        rw [Option.eq_none_iff_forall_ne_some]
        intro h hh
        obtain ⟨_, hnarrow, hle', _⟩ := intersectVolume_eq_some.mp hh
        obtain ⟨v', hv', rfl⟩ := Box.of_intersect_upTo hnarrow
        obtain rfl : v = v' := Option.some.inj (hv.symm.trans hv')
        exact hle' (le_trans (lesser_le_right hm) (le_of_not_lt hm hb.lower hlt))

theorem intersectTriangle_cutsOff (a b c : Vec3 α) (owner : Nat) (ray : Ray α) :
    CutsOff (intersectTriangle a b c owner ray) := by
  rw [funext (intersectTriangle_eq a b c ray owner)]
  refine CutsOff.ite_none (CutsOff.ite_none (CutsOff.ite_none ?_))
  exact cutsOff_surrounds rfl rfl

end Primitive

/-- A scalar type in which the roots of a quadratic with a sum of squares in front are in order. -/
class RootedScalar (α : Type) [Scalar α] : Prop extends OrderedScalar α where
  roots_ordered (h x : α) (d : Vec3 α) :
    ¬ (h + Scalar.sqrt x) / d.lengthSquared < (h - Scalar.sqrt x) / d.lengthSquared

namespace Primitive

variable {α : Type} [Scalar α] [RootedScalar α]

theorem intersectSphere_cutsOff (center : Vec3 α) (radius : α) (owner : Nat) (ray : Ray α) :
    CutsOff (intersectSphere center radius owner ray) := by
  let hitAt (t : α) : Hit α :=
    .facing ray t t ((ray.at t - center) / radius)
      (sphereUV ((ray.at t - center) / radius)) owner
  have heq : intersectSphere center radius owner ray = fun w =>
      if sphereDiscriminant center radius ray < 0.0 then none
      else if w.surrounds (sphereNear center radius ray) then
        some (hitAt (sphereNear center radius ray))
      else if w.surrounds (sphereFar center radius ray) then
        some (hitAt (sphereFar center radius ray))
      else none := by
    funext w
    change (sphereRoot center radius ray w).map hitAt = _
    rw [sphereRoot_eq]
    simp only [apply_ite (Option.map hitAt), Option.map_none, Option.map_some]
  rw [heq]
  exact CutsOff.ite_none
    (cutsOff_surrounds_or (fun _ => rfl) (fun _ => rfl) (RootedScalar.roots_ordered _ _ _))

theorem intersect_cutsOff (p : Primitive α) (ray : Ray α) : CutsOff (p.intersect ray) := by
  rcases p with ⟨solid, owner⟩
  cases solid with
  | sphere center radius => exact intersectSphere_cutsOff center radius owner ray
  | triangle a b c => exact intersectTriangle_cutsOff a b c owner ray
  | volume bounds => exact intersectVolume_cutsOff bounds owner ray

end Primitive

end TileTracer
