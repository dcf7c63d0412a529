import TileTracer.Geometry.Box
import TileTracer.Proofs.MonotoneScalars
import TileTracer.Proofs.NarrowedWindow

namespace TileTracer

open Scalar OrderedScalar

variable {α : Type} [Scalar α]

theorem Axis.forall_iff {P : Axis → Prop} : (∀ axis, P axis) ↔ P .x ∧ P .y ∧ P .z :=
  ⟨fun h => ⟨h .x, h .y, h .z⟩, fun ⟨hx, hy, hz⟩ axis => by cases axis <;> assumption⟩

theorem Axis.exists_iff {P : Axis → Prop} : (∃ axis, P axis) ↔ P .x ∨ P .y ∨ P .z := by
  constructor
  · rintro ⟨_ | _ | _, h⟩ <;> simp [h]
  · rintro (h | h | h) <;> exact ⟨_, h⟩

namespace Vec3

variable (u v : Vec3 α) (s : α) (axis : Axis)

@[simp] theorem along_lesser :
    (u.lesser v).along axis = Scalar.lesser (u.along axis) (v.along axis) := by
  cases axis <;> rfl

@[simp] theorem along_greater :
    (u.greater v).along axis = Scalar.greater (u.along axis) (v.along axis) := by
  cases axis <;> rfl

@[simp] theorem along_add : (u + v).along axis = u.along axis + v.along axis := by
  cases axis <;> rfl

@[simp] theorem along_sub : (u - v).along axis = u.along axis - v.along axis := by
  cases axis <;> rfl

@[simp] theorem along_mul : (u * s).along axis = u.along axis * s := by
  cases axis <;> rfl

omit [Scalar α] in
@[simp] theorem along_splat : (splat s).along axis = s := by
  cases axis <;> rfl

omit [Scalar α] in
theorem ext_along {u v : Vec3 α} (h : ∀ axis, u.along axis = v.along axis) : u = v := by
  obtain ⟨ux, uy, uz⟩ := u
  obtain ⟨vx, vy, vz⟩ := v
  exact congr (congr (congrArg mk (h .x)) (h .y)) (h .z)

/-- Every component is a number. -/
def IsNumber : Prop := ∀ axis, v.along axis ≤ v.along axis

theorem isNumber_iff : v.IsNumber ↔ v.x ≤ v.x ∧ v.y ≤ v.y ∧ v.z ≤ v.z := Axis.forall_iff

instance : Decidable v.IsNumber := decidable_of_iff' _ v.isNumber_iff

theorem isFinite_iff {v : Vec3 α} :
    v.isFinite = true ↔ ∀ axis, Scalar.isFinite (v.along axis) = true := by
  rw [Axis.forall_iff, isFinite, Bool.and_eq_true, Bool.and_eq_true, and_assoc]
  rfl

end Vec3

/-- No component of the direction has zero for its reciprocal. -/
def Ray.Invertible (ray : Ray α) : Prop :=
  ∀ axis, (1.0 : α) / ray.direction.along axis < 0.0 ∨ (0.0 : α) < 1.0 / ray.direction.along axis ∨
    ¬ (1.0 : α) / ray.direction.along axis ≤ 1.0 / ray.direction.along axis

/-- Every limit of the outer window is one of the inner window. -/
structure Window.Within (inner outer : Window α) : Prop where
  below {t : α} : t < outer.lower → t < inner.lower
  above {t : α} : outer.upper < t → inner.upper < t

theorem Window.Within.refl (w : Window α) : w.Within w := ⟨id, id⟩

namespace Box

structure IsNumber (box : Box α) : Prop where
  low : box.low.IsNumber
  high : box.high.IsNumber

instance (box : Box α) : Decidable box.IsNumber :=
  decidable_of_iff (box.low.IsNumber ∧ box.high.IsNumber) ⟨fun h => ⟨h.1, h.2⟩, fun h => ⟨h.1, h.2⟩⟩

structure Encloses (outer inner : Box α) : Prop where
  low (axis : Axis) : outer.low.along axis ≤ inner.low.along axis
  high (axis : Axis) : inner.high.along axis ≤ outer.high.along axis

/-- The least box around some boxes. -/
structure IsHull (box : Box α) (boxes : List (Box α)) : Prop where
  encloses : ∀ b ∈ boxes, box.Encloses b
  least (outer : Box α) : (∀ b ∈ boxes, outer.Encloses b) → outer.Encloses box

def point (p : Vec3 α) : Box α := ⟨p, p⟩

section Ordered

variable {a b c : Box α}

theorem Encloses.refl (ha : a.IsNumber) : a.Encloses a := ⟨ha.low, ha.high⟩

theorem Encloses.join (ha : c.Encloses a) (hb : c.Encloses b) : c.Encloses (a.join b) where
  low axis := by
    rw [Box.join, Vec3.along_lesser]
    rcases lesser_eq_or (a.low.along axis) (b.low.along axis) with h | h <;> rw [h]
    · exact ha.low axis
    · exact hb.low axis
  high axis := by
    rw [Box.join, Vec3.along_greater]
    rcases greater_eq_or (a.high.along axis) (b.high.along axis) with h | h <;> rw [h]
    · exact ha.high axis
    · exact hb.high axis

theorem Encloses.foldl_join {outer acc : Box α} (hacc : outer.Encloses acc) {boxes : List (Box α)}
    (hboxes : ∀ b ∈ boxes, outer.Encloses b) : outer.Encloses (boxes.foldl Box.join acc) := by
  induction boxes generalizing acc with
  | nil => exact hacc
  | cons b boxes ih =>
      obtain ⟨hb, hboxes⟩ := List.forall_mem_cons.mp hboxes
      exact ih (hacc.join hb) hboxes

variable [OrderedScalar α]

theorem Encloses.trans (hab : a.Encloses b) (hbc : b.Encloses c) : a.Encloses c :=
  ⟨fun axis => le_trans (hab.low axis) (hbc.low axis),
    fun axis => le_trans (hbc.high axis) (hab.high axis)⟩

theorem Encloses.outer_isNumber (h : a.Encloses b) : a.IsNumber :=
  ⟨fun axis => self_le_of_le_left (h.low axis), fun axis => self_le_of_le_right (h.high axis)⟩

theorem join_encloses_left (ha : a.IsNumber) : (a.join b).Encloses a where
  low axis := by
    rw [join, Vec3.along_lesser]
    exact lesser_le_left (ha.low axis)
  high axis := by
    rw [join, Vec3.along_greater]
    exact le_greater_left (ha.high axis)

theorem join_encloses_right (hb : b.IsNumber) : (a.join b).Encloses b where
  low axis := by
    rw [join, Vec3.along_lesser]
    exact lesser_le_right (hb.low axis)
  high axis := by
    rw [join, Vec3.along_greater]
    exact le_greater_right (hb.high axis)

theorem foldl_join_encloses {acc : Box α} (hacc : acc.IsNumber) {boxes : List (Box α)}
    (hboxes : ∀ b ∈ boxes, b.IsNumber) :
    (boxes.foldl Box.join acc).Encloses acc ∧
      ∀ b ∈ boxes, (boxes.foldl Box.join acc).Encloses b := by
  induction boxes generalizing acc with
  | nil => exact ⟨.refl hacc, fun b hb => absurd hb List.not_mem_nil⟩
  | cons b boxes ih =>
      obtain ⟨hb, hboxes⟩ := List.forall_mem_cons.mp hboxes
      have hleft := join_encloses_left (b := b) hacc
      obtain ⟨hjoin, hrest⟩ := ih hleft.outer_isNumber hboxes
      exact ⟨hjoin.trans hleft,
        List.forall_mem_cons.mpr ⟨hjoin.trans (join_encloses_right hb), hrest⟩⟩

end Ordered

section Monotone

variable [MonotoneScalar α]

theorem empty_isNumber {x : α} (hx : x ≤ x) : (empty : Box α).IsNumber := by
  constructor <;> intro axis <;> rw [empty, Vec3.along_splat]
  · exact self_le_of_le_right (MonotoneScalar.le_infinity hx)
  · exact self_le_of_le_left (MonotoneScalar.neg_infinity_le hx)

theorem encloses_empty {box : Box α} (h : box.IsNumber) : box.Encloses empty where
  low axis := by
    rw [empty, Vec3.along_splat]
    exact MonotoneScalar.le_infinity (h.low axis)
  high axis := by
    rw [empty, Vec3.along_splat]
    exact MonotoneScalar.neg_infinity_le (h.high axis)

theorem foldl_join_isHull {boxes : List (Box α)} (hne : boxes ≠ [])
    (hboxes : ∀ b ∈ boxes, b.IsNumber) : (boxes.foldl join empty).IsHull boxes := by
  obtain ⟨b, hb⟩ := List.exists_mem_of_ne_nil boxes hne
  refine ⟨(foldl_join_encloses (empty_isNumber ((hboxes b hb).low .x)) hboxes).2, ?_⟩
  intro outer houter
  exact (encloses_empty (houter b hb).outer_isNumber).foldl_join houter

variable {outer inner : Box α} {ray : Ray α} {axis : Axis} {v w u : Window α}

/-- The planes of an outer box limit a ray less than those of an inner one. -/
theorem planes_under (hray : ray.Invertible) (h : outer.Encloses inner) (axis : Axis) :
    Under (outer.planes ray axis).1 (inner.planes ray axis).1 ∧
      Under (inner.planes ray axis).2 (outer.planes ray axis).2 := by
  have hlow := MonotoneScalar.sub_under (.of_le (h.low axis)) (.refl (ray.origin.along axis))
  have hhigh := MonotoneScalar.sub_under (.of_le (h.high axis)) (.refl (ray.origin.along axis))
  unfold planes
  dsimp only
  split
  · next hneg =>
    exact ⟨MonotoneScalar.mul_under_of_neg hneg hhigh, MonotoneScalar.mul_under_of_neg hneg hlow⟩
  · next hneg =>
    rcases hray axis with hlt | hlt | hnot
    · exact absurd hlt hneg
    · exact ⟨MonotoneScalar.mul_under_of_pos hlt hlow, MonotoneScalar.mul_under_of_pos hlt hhigh⟩
    · exact ⟨MonotoneScalar.mul_under_of_not_number hnot,
        MonotoneScalar.mul_under_of_not_number hnot⟩

theorem clip_of_encloses (hray : ray.Invertible) (h : outer.Encloses inner) (hvw : v.Within w)
    (hclip : inner.clip ray axis v = some u) :
    ∃ u', outer.clip ray axis w = some u' ∧ u.Within u' := by
  obtain ⟨hnear, hfar⟩ := planes_under hray h axis
  obtain ⟨hle, hlower, hupper⟩ := clip_eq_some.mp hclip
  let u' : Window α :=
    ⟨greater (outer.planes ray axis).1 w.lower, lesser (outer.planes ray axis).2 w.upper⟩
  have hwithin : u.Within u' := by
    constructor
    · intro t ht
      rw [hlower]
      exact lt_greater_iff.mpr ((lt_greater_iff.mp ht).imp hnear.below hvw.below)
    · intro t ht
      rw [hupper]
      exact lesser_lt_iff.mpr ((lesser_lt_iff.mp ht).imp hfar.above hvw.above)
  exact ⟨u', clip_eq_some.mpr ⟨fun hlt => hle (hwithin.above (hwithin.below hlt)), rfl, rfl⟩,
    hwithin⟩

theorem intersect_of_encloses (hray : ray.Invertible) (h : outer.Encloses inner)
    (hvw : v.Within w) (hin : inner.intersect ray v = some u) :
    ∃ u', outer.intersect ray w = some u' ∧ u.Within u' := by
  obtain ⟨a, b, hx, hy, hz⟩ := intersect_eq_some.mp hin
  obtain ⟨a', hx', ha⟩ := clip_of_encloses hray h hvw hx
  obtain ⟨b', hy', hb⟩ := clip_of_encloses hray h ha hy
  obtain ⟨u', hz', hu⟩ := clip_of_encloses hray h hb hz
  exact ⟨u', intersect_eq_some.mpr ⟨a', b', hx', hy', hz'⟩, hu⟩

theorem meets_of_encloses (hray : ray.Invertible) (h : outer.Encloses inner)
    (hmeets : inner.meets ray w = true) : outer.meets ray w = true := by
  obtain ⟨u, hu⟩ := Option.isSome_iff_exists.mp hmeets
  obtain ⟨u', hu', -⟩ := intersect_of_encloses hray h (.refl w) hu
  exact Option.isSome_iff_exists.mpr ⟨u', hu'⟩

end Monotone

end Box

end TileTracer
