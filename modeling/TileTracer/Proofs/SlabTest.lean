import TileTracer.Proofs.BoxEnclosure
import TileTracer.Proofs.ExactMonotone

/-!
Clipping a window along an axis keeps the parameters that the window and the slab of that axis both
admit. In exact arithmetic a slab admits the parameters at which the ray is between its planes, also
where the ray runs along them or in one of them: what is left of a window after the three axes is
where the ray is inside the box.
-/

namespace TileTracer

open Scalar OrderedScalar

variable {α : Type} [Scalar α]

namespace Window

/-- Neither end excludes the parameter; an end that is not a number excludes nothing. -/
structure Admits (w : Window α) (t : α) : Prop where
  lower : ¬ t < w.lower
  upper : ¬ w.upper < t

theorem admits_iff {w : Window α} {t : α} : w.Admits t ↔ ¬ t < w.lower ∧ ¬ w.upper < t :=
  ⟨fun h => ⟨h.1, h.2⟩, fun h => ⟨h.1, h.2⟩⟩

structure Contains (w : Window α) (t : α) : Prop where
  lower : w.lower ≤ t
  upper : t ≤ w.upper

variable [OrderedScalar α] {w : Window α} {t : α}

theorem Contains.admits (h : w.Contains t) : w.Admits t :=
  ⟨not_lt_of_le h.lower, not_lt_of_le h.upper⟩

theorem admits_iff_contains (hw : w.Bounded) (ht : t ≤ t) : w.Admits t ↔ w.Contains t :=
  ⟨fun h => ⟨le_of_not_lt hw.lower ht h.lower, le_of_not_lt ht hw.upper h.upper⟩, Contains.admits⟩

end Window

@[simp] theorem Ray.along_at (ray : Ray α) (t : α) (axis : Axis) :
    (ray.at t).along axis = ray.origin.along axis + t * ray.direction.along axis := by
  cases axis <;> rfl

/-- The ray starts at a finite place and leads somewhere. -/
structure Ray.Proper (ray : Ray α) : Prop where
  origin : ray.origin.isFinite = true
  direction : ray.direction.isFinite = true
  nonzero : ∃ axis, ray.direction.along axis < 0.0 ∨ 0.0 < ray.direction.along axis

namespace Box

structure Contains (box : Box α) (p : Vec3 α) : Prop where
  low (axis : Axis) : box.low.along axis ≤ p.along axis
  high (axis : Axis) : p.along axis ≤ box.high.along axis

/-- The finite parameters of the window at which the ray is inside the box. -/
def inside (box : Box α) (ray : Ray α) (w : Window α) : Set α :=
  {t | Scalar.isFinite t = true ∧ w.Contains t ∧ box.Contains (ray.at t)}

def slab (box : Box α) (ray : Ray α) (axis : Axis) : Window α :=
  ⟨(box.planes ray axis).1, (box.planes ray axis).2⟩

variable {box : Box α} {ray : Ray α} {axis : Axis} {w v : Window α} {t : α}

theorem slab_of_neg (h : (1.0 : α) / ray.direction.along axis < 0.0) :
    box.slab ray axis =
      ⟨(box.high.along axis - ray.origin.along axis) * (1.0 / ray.direction.along axis),
        (box.low.along axis - ray.origin.along axis) * (1.0 / ray.direction.along axis)⟩ := by
  unfold slab planes
  simp only [if_pos h]

theorem slab_of_not_neg (h : ¬ (1.0 : α) / ray.direction.along axis < 0.0) :
    box.slab ray axis =
      ⟨(box.low.along axis - ray.origin.along axis) * (1.0 / ray.direction.along axis),
        (box.high.along axis - ray.origin.along axis) * (1.0 / ray.direction.along axis)⟩ := by
  unfold slab planes
  simp only [if_neg h]

theorem not_upper_lt_lower (h : box.intersect ray w = some v) : ¬ v.upper < v.lower := by
  obtain ⟨v₁, v₂, -, -, hz⟩ := intersect_eq_some.mp h
  exact (clip_eq_some.mp hz).1

variable [OrderedScalar α]

theorem clip_limits (h : box.clip ray axis w = some v) :
    (t < v.lower ↔ t < (box.slab ray axis).lower ∨ t < w.lower) ∧
      (v.upper < t ↔ (box.slab ray axis).upper < t ∨ w.upper < t) := by
  obtain ⟨-, hlower, hupper⟩ := clip_eq_some.mp h
  rw [hlower, hupper, lt_greater_iff, lesser_lt_iff]
  exact ⟨Iff.rfl, Iff.rfl⟩

/-- What is left of the window is limited by it and by the three slabs. -/
theorem intersect_limits (h : box.intersect ray w = some v) :
    (t < v.lower ↔ (∃ axis, t < (box.slab ray axis).lower) ∨ t < w.lower) ∧
      (v.upper < t ↔ (∃ axis, (box.slab ray axis).upper < t) ∨ w.upper < t) := by
  obtain ⟨v₁, v₂, hx, hy, hz⟩ := intersect_eq_some.mp h
  rw [(clip_limits hz).1, (clip_limits hy).1, (clip_limits hx).1, (clip_limits hz).2,
    (clip_limits hy).2, (clip_limits hx).2, Axis.exists_iff, Axis.exists_iff]
  tauto

theorem admits_intersect_iff (h : box.intersect ray w = some v) :
    v.Admits t ↔ w.Admits t ∧ ∀ axis, (box.slab ray axis).Admits t := by
  obtain ⟨hlower, hupper⟩ := intersect_limits (t := t) h
  simp only [Window.admits_iff, hlower, hupper, not_or, not_exists, forall_and]
  tauto

theorem exists_clip (ht : t ≤ t) (hw : w.Admits t) (hslab : (box.slab ray axis).Admits t) :
    ∃ v, box.clip ray axis w = some v ∧ v.Admits t := by
  let v : Window α :=
    ⟨greater (box.planes ray axis).1 w.lower, lesser (box.planes ray axis).2 w.upper⟩
  have hadmits : v.Admits t :=
    ⟨mt lt_greater_iff.mp (not_or.mpr ⟨hslab.lower, hw.lower⟩),
      mt lesser_lt_iff.mp (not_or.mpr ⟨hslab.upper, hw.upper⟩)⟩
  have hle : ¬ v.upper < v.lower := fun hlt => (lt_or_lt hlt ht).elim hadmits.upper hadmits.lower
  exact ⟨v, clip_eq_some.mpr ⟨hle, rfl, rfl⟩, hadmits⟩

theorem exists_intersect (ht : t ≤ t) (hw : w.Admits t)
    (hslabs : ∀ axis, (box.slab ray axis).Admits t) : ∃ v, box.intersect ray w = some v := by
  obtain ⟨v₁, hx, h₁⟩ := exists_clip ht hw (hslabs .x)
  obtain ⟨v₂, hy, h₂⟩ := exists_clip ht h₁ (hslabs .y)
  obtain ⟨v, hz, -⟩ := exists_clip ht h₂ (hslabs .z)
  exact ⟨v, intersect_eq_some.mpr ⟨v₁, v₂, hx, hy, hz⟩⟩

end Box

namespace Exact

variable {a t : Exact} {x y : ℝ} {s : Bool}

protected theorem div_zero (ha : a.HasValue x) (hx : 0 < x) (h : SignOf 0 s) :
    a / finite 0 s h = infinite s := by
  cases ha with
  | finite x t ht =>
      obtain rfl : t = false := ht.2 hx
      exact (if_pos rfl).trans ((if_neg hx.ne').trans (congrArg infinite (Bool.false_xor s)))

theorem lt_iff_lt_lowest (ht : t.HasValue x) : t < a ↔ (x : EReal) < lowest a := by
  unfold lowest
  constructor
  · rintro ⟨_, y, hx, hy, hlt⟩
    cases ht.rank.symm.trans hx
    rwa [hy]
  · intro hlt
    cases ha : rank? a with
    | none =>
        rw [ha] at hlt
        exact absurd hlt not_lt_bot
    | some y =>
        rw [ha] at hlt
        exact (ranking.lt_iff_of_rank ht.rank ha).mpr hlt

theorem lt_iff_highest_lt (ht : t.HasValue x) : a < t ↔ highest a < (x : EReal) := by
  unfold highest
  constructor
  · rintro ⟨y, _, hy, hx, hlt⟩
    cases ht.rank.symm.trans hx
    rwa [hy]
  · intro hlt
    cases ha : rank? a with
    | none =>
        rw [ha] at hlt
        exact absurd hlt not_top_lt
    | some y =>
        rw [ha] at hlt
        exact (ranking.lt_iff_of_rank ha ht.rank).mpr hlt

theorem coe_lt_ite {p : Prop} [Decidable p] : (x : EReal) < (if p then ⊤ else ⊥) ↔ p := by
  split
  · next hp => exact iff_of_true (EReal.coe_lt_top x) hp
  · next hp => exact iff_of_false not_lt_bot hp

theorem ite_lt_coe {p : Prop} [Decidable p] : (if p then ⊥ else ⊤) < (x : EReal) ↔ p := by
  split
  · next hp => exact iff_of_true (EReal.bot_lt_coe x) hp
  · next hp => exact iff_of_false not_top_lt hp

/-- Against numbers, a product with infinity tells the sign; the product with zero is no limit. -/
theorem lt_mul_infinite (ha : a.HasValue y) (ht : t.HasValue x) :
    t < a * infinite false ↔ 0 < y := by
  have hlow : lowest a = y := congrArg (·.getD ⊥) ha.rank
  rw [lt_iff_lt_lowest ht, (limits_mul_infinite a).1, coe_lt_ite, hlow, EReal.coe_pos]

theorem mul_infinite_lt (ha : a.HasValue y) (ht : t.HasValue x) :
    a * infinite false < t ↔ y < 0 := by
  have hhigh : highest a = y := congrArg (·.getD ⊤) ha.rank
  rw [lt_iff_highest_lt ht, (limits_mul_infinite a).2, ite_lt_coe, hhigh, EReal.coe_neg']

theorem mul_neg_infinite (a : Exact) : a * infinite true = -(a * infinite false) :=
  Exact.mul_neg a (infinite false)

theorem lt_mul_neg_infinite (ha : a.HasValue y) (ht : t.HasValue x) :
    t < a * infinite true ↔ y < 0 := by
  rw [mul_neg_infinite, lt_iff_lt_lowest ht, lowest_neg, EReal.lt_neg_comm, ← EReal.coe_neg,
    ← lt_iff_highest_lt ht.neg, mul_infinite_lt ha ht.neg]

theorem mul_neg_infinite_lt (ha : a.HasValue y) (ht : t.HasValue x) :
    a * infinite true < t ↔ 0 < y := by
  rw [mul_neg_infinite, lt_iff_highest_lt ht, highest_neg, EReal.neg_lt_comm, ← EReal.coe_neg,
    ← lt_iff_lt_lowest ht.neg, lt_mul_infinite ha ht.neg]

theorem neg_infinite_lt_zero : (infinite true : Exact) < 0.0 :=
  (ranking.lt_iff_of_rank rfl HasValue.zero.rank).mpr EReal.bot_lt_zero

theorem not_infinite_lt_zero : ¬ (infinite false : Exact) < 0.0 := fun hlt =>
  not_top_lt ((ranking.lt_iff_of_rank rfl HasValue.zero.rank).mp hlt)

end Exact

namespace Box

variable {box : Box Exact} {ray : Ray Exact} {axis : Axis} {w v : Window Exact} {t : Exact}
  {l h o d x : ℝ}

theorem slab_admits_of_zero (hlow : (box.low.along axis).HasValue l)
    (hhigh : (box.high.along axis).HasValue h) (horigin : (ray.origin.along axis).HasValue o)
    (hdirection : (ray.direction.along axis).HasValue 0) (ht : t.HasValue x) :
    (box.slab ray axis).Admits t ↔ l ≤ o ∧ o ≤ h := by
  have hbelow := hlow.sub horigin
  have habove := hhigh.sub horigin
  rw [← sub_nonpos, ← sub_nonneg (b := o)]
  generalize hd : ray.direction.along axis = direction at hdirection
  cases hdirection with
  | finite _ s hs =>
      have hinverse : (1.0 : Exact) / ray.direction.along axis = .infinite s :=
        hd ▸ Exact.div_zero .one one_pos hs
      -- The reciprocal has the sign of the zero, and turns the slab around with it.
      cases s with
      | false =>
          rw [slab_of_not_neg (hinverse ▸ Exact.not_infinite_lt_zero), hinverse,
            Window.admits_iff, Exact.lt_mul_infinite hbelow ht, Exact.mul_infinite_lt habove ht,
            not_lt, not_lt]
      | true =>
          rw [slab_of_neg (hinverse ▸ Exact.neg_infinite_lt_zero), hinverse, Window.admits_iff,
            Exact.lt_mul_neg_infinite habove ht, Exact.mul_neg_infinite_lt hbelow ht, not_lt,
            not_lt, and_comm]

theorem slab_of_ne_zero (hlow : (box.low.along axis).HasValue l)
    (hhigh : (box.high.along axis).HasValue h) (horigin : (ray.origin.along axis).HasValue o)
    (hdirection : (ray.direction.along axis).HasValue d) (hd : d ≠ 0) :
    ∃ near far, (box.slab ray axis).lower.HasValue near ∧ (box.slab ray axis).upper.HasValue far ∧
      ∀ x, near ≤ x ∧ x ≤ far ↔ l - o ≤ x * d ∧ x * d ≤ h - o := by
  have hinverse := Exact.HasValue.one.div hdirection hd
  have hbelow := (hlow.sub horigin).mul hinverse
  have habove := (hhigh.sub horigin).mul hinverse
  rw [mul_one_div] at hbelow habove
  rcases lt_or_gt_of_ne hd with hneg | hpos
  · rw [slab_of_neg ((hinverse.lt_iff .zero).mpr (one_div_neg.mpr hneg))]
    refine ⟨_, _, habove, hbelow, fun x => ?_⟩
    rw [div_le_iff_of_neg hneg, le_div_iff_of_neg hneg, and_comm]
  · rw [slab_of_not_neg (mt (hinverse.lt_iff .zero).mp (not_lt_of_ge (one_div_nonneg.mpr hpos.le)))]
    refine ⟨_, _, hbelow, habove, fun x => ?_⟩
    rw [div_le_iff₀ hpos, le_div_iff₀ hpos]

theorem slab_admits_iff (hbox : box.isFinite = true) (horigin : ray.origin.isFinite = true)
    (hdirection : ray.direction.isFinite = true) (ht : Scalar.isFinite t = true) (axis : Axis) :
    (box.slab ray axis).Admits t ↔
      box.low.along axis ≤ (ray.at t).along axis ∧ (ray.at t).along axis ≤ box.high.along axis := by
  obtain ⟨hlow, hhigh⟩ := Bool.and_eq_true_iff.mp hbox
  obtain ⟨l, hl⟩ := Exact.isFinite_iff.mp (Vec3.isFinite_iff.mp hlow axis)
  obtain ⟨h, hh⟩ := Exact.isFinite_iff.mp (Vec3.isFinite_iff.mp hhigh axis)
  obtain ⟨o, ho⟩ := Exact.isFinite_iff.mp (Vec3.isFinite_iff.mp horigin axis)
  obtain ⟨d, hd⟩ := Exact.isFinite_iff.mp (Vec3.isFinite_iff.mp hdirection axis)
  obtain ⟨x, hx⟩ := Exact.isFinite_iff.mp ht
  have hat := ho.add (hx.mul hd)
  rw [Ray.along_at, hl.le_iff hat, hat.le_iff hh]
  by_cases hzero : d = 0
  · subst hzero
    rw [slab_admits_of_zero hl hh ho hd hx, mul_zero, add_zero]
  · obtain ⟨near, far, hnear, hfar, hbetween⟩ := slab_of_ne_zero hl hh ho hd hzero
    rw [Window.admits_iff, hx.lt_iff hnear, hfar.lt_iff hx, not_lt, not_lt, hbetween,
      sub_le_iff_le_add', le_sub_iff_add_le']

theorem contains_iff_slabs (hbox : box.isFinite = true) (horigin : ray.origin.isFinite = true)
    (hdirection : ray.direction.isFinite = true) (ht : Scalar.isFinite t = true) :
    box.Contains (ray.at t) ↔ ∀ axis, (box.slab ray axis).Admits t := by
  simp only [slab_admits_iff hbox horigin hdirection ht]
  exact ⟨fun h axis => ⟨h.low axis, h.high axis⟩,
    fun h => ⟨fun axis => (h axis).1, fun axis => (h axis).2⟩⟩

/-- A ray that leads somewhere is inside a finite box for a finite range of parameters only, however
far the window extends. -/
theorem finite_of_intersect (hbox : box.isFinite = true) (hray : ray.Proper)
    (hv : box.intersect ray w = some v) :
    Scalar.isFinite v.lower = true ∧ Scalar.isFinite v.upper = true ∧ v.lower ≤ v.upper := by
  obtain ⟨hlow, hhigh⟩ := Bool.and_eq_true_iff.mp hbox
  obtain ⟨axis, hne⟩ := hray.nonzero
  obtain ⟨l, hl⟩ := Exact.isFinite_iff.mp (Vec3.isFinite_iff.mp hlow axis)
  obtain ⟨h, hh⟩ := Exact.isFinite_iff.mp (Vec3.isFinite_iff.mp hhigh axis)
  obtain ⟨o, ho⟩ := Exact.isFinite_iff.mp (Vec3.isFinite_iff.mp hray.origin axis)
  obtain ⟨d, hd⟩ := Exact.isFinite_iff.mp (Vec3.isFinite_iff.mp hray.direction axis)
  have hzero : d ≠ 0 := by
    rw [hd.lt_iff .zero, Exact.HasValue.zero.lt_iff hd] at hne
    exact hne.elim LT.lt.ne LT.lt.ne'
  obtain ⟨near, far, hnear, hfar, -⟩ := slab_of_ne_zero hl hh ho hd hzero
  have hlower : -infinity < v.lower :=
    (intersect_limits hv).1.mpr (.inl ⟨axis, (isFinite_eq_true.mp hnear.isFinite).1⟩)
  have hupper : v.upper < infinity :=
    (intersect_limits hv).2.mpr (.inl ⟨axis, (isFinite_eq_true.mp hfar.isFinite).2⟩)
  have hle := le_of_not_lt (le_self_of_lt hlower).2 (le_self_of_lt hupper).1 (not_upper_lt_lower hv)
  exact ⟨isFinite_eq_true.mpr ⟨hlower, lt_of_le_of_lt hle hupper⟩,
    isFinite_eq_true.mpr ⟨lt_of_lt_of_le hlower hle, hupper⟩, hle⟩

theorem meets_of_contains (hbox : box.isFinite = true) (horigin : ray.origin.isFinite = true)
    (hdirection : ray.direction.isFinite = true) (ht : Scalar.isFinite t = true) (hw : w.Admits t)
    (hin : box.Contains (ray.at t)) : box.meets ray w = true := by
  obtain ⟨x, hx⟩ := Exact.isFinite_iff.mp ht
  obtain ⟨v, hv⟩ := exists_intersect hx.isNumber hw
    ((contains_iff_slabs hbox horigin hdirection ht).mp hin)
  exact Option.isSome_iff_exists.mpr ⟨v, hv⟩

/-- The slab test is exact: what it leaves of the window is where the ray is inside the box, and it
leaves nothing only if the ray is nowhere inside it within the window. -/
theorem intersect_exact (hbox : box.isFinite = true) (hray : ray.Proper) (hw : w.Bounded) :
    (box.intersect ray w = none ↔ box.inside ray w = ∅) ∧
      ∀ v, box.intersect ray w = some v →
        Scalar.isFinite v.lower = true ∧ Scalar.isFinite v.upper = true ∧ v.lower ≤ v.upper ∧
          box.inside ray w = {t | v.Contains t} := by
  have hleft {v : Window Exact} (hv : box.intersect ray w = some v) :
      box.inside ray w = {t | v.Contains t} := by
    obtain ⟨hlower, hupper, hle⟩ := finite_of_intersect hbox hray hv
    have hbounded : v.Bounded := ⟨self_le_of_le_left hle, self_le_of_le_right hle⟩
    have hiff {t : Exact} (ht : Scalar.isFinite t = true) :
        w.Contains t ∧ box.Contains (ray.at t) ↔ v.Contains t := by
      obtain ⟨x, hx⟩ := Exact.isFinite_iff.mp ht
      rw [contains_iff_slabs hbox hray.origin hray.direction ht,
        ← Window.admits_iff_contains hw hx.isNumber, ← admits_intersect_iff hv,
        Window.admits_iff_contains hbounded hx.isNumber]
    ext t
    constructor
    · rintro ⟨ht, hin⟩
      exact (hiff ht).mp hin
    · intro (hin : v.Contains t)
      have ht : Scalar.isFinite t = true :=
        isFinite_eq_true.mpr ⟨lt_of_lt_of_le (isFinite_eq_true.mp hlower).1 hin.lower,
          lt_of_le_of_lt hin.upper (isFinite_eq_true.mp hupper).2⟩
      exact ⟨ht, (hiff ht).mpr hin⟩
  constructor
  · constructor
    · intro hnone
      rw [Set.eq_empty_iff_forall_notMem]
      rintro t ⟨ht, hwin, hin⟩
      have hmeets := meets_of_contains hbox hray.origin hray.direction ht hwin.admits hin
      rw [meets, hnone] at hmeets
      cases hmeets
    · intro hempty
      rw [Option.eq_none_iff_forall_ne_some]
      intro v hv
      -- A window that is left holds its own start, where the ray would be inside.
      obtain ⟨-, -, hle⟩ := finite_of_intersect hbox hray hv
      have hin : v.lower ∈ {t | v.Contains t} := ⟨self_le_of_le_left hle, hle⟩
      rw [← hleft hv, hempty] at hin
      exact hin
  · intro v hv
    obtain ⟨hlower, hupper, hle⟩ := finite_of_intersect hbox hray hv
    exact ⟨hlower, hupper, hle, hleft hv⟩

noncomputable section

def unit : Box Exact := ⟨.splat 0.0, .splat 1.0⟩

/-- A ray in a face of the unit box; its direction has zeros of both signs. -/
def rayInFace : Ray Exact := ⟨⟨0.0, 0.5, -1.0⟩, ⟨-0.0, 0.0, 2.0⟩⟩

end

theorem unit_isFinite : unit.isFinite = true := by
  refine Bool.and_eq_true_iff.mpr ⟨Vec3.isFinite_iff.mpr fun axis => ?_,
    Vec3.isFinite_iff.mpr fun axis => ?_⟩
  · cases axis <;> exact Exact.isFinite_ofScientific 0 true 1
  · cases axis <;> exact Exact.isFinite_ofScientific 10 true 1

theorem unit_isEmpty : unit.isEmpty = false := by
  have hnot : ¬ (1.0 : Exact) < 0.0 :=
    mt (Exact.HasValue.one.lt_iff .zero).mp (not_lt_of_ge zero_le_one)
  simp [isEmpty, unit, Vec3.splat, hnot]

theorem rayInFace_proper : rayInFace.Proper := by
  have hzero := Exact.isFinite_ofScientific 0 true 1
  have hone := Exact.isFinite_ofScientific 10 true 1
  have hhalf := Exact.isFinite_ofScientific 5 true 1
  have htwo := Exact.isFinite_ofScientific 20 true 1
  refine ⟨Vec3.isFinite_iff.mpr (Axis.forall_iff.mpr ⟨hzero, hhalf, Exact.isFinite_neg hone⟩),
    Vec3.isFinite_iff.mpr (Axis.forall_iff.mpr ⟨Exact.isFinite_neg hzero, hzero, htwo⟩), .z, .inr ?_⟩
  exact (Exact.HasValue.zero.lt_iff (.ofScientific 20 true 1)).mpr (by norm_num)

theorem startingAt_zero_bounded : (Window.startingAt (0.0 : Exact)).Bounded :=
  have hzero := Exact.HasValue.zero.isNumber
  ⟨hzero, self_le_of_le_right (MonotoneScalar.le_infinity hzero)⟩

theorem intersect_exact_in_face :
    unit.isFinite = true ∧ rayInFace.Proper ∧ (Window.startingAt (0.0 : Exact)).Bounded ∧
      (unit.intersect rayInFace (.startingAt 0.0) = none ↔
        unit.inside rayInFace (.startingAt 0.0) = ∅) ∧
      ∀ v, unit.intersect rayInFace (.startingAt 0.0) = some v →
        Scalar.isFinite v.lower = true ∧ Scalar.isFinite v.upper = true ∧ v.lower ≤ v.upper ∧
          unit.inside rayInFace (.startingAt 0.0) = {t | v.Contains t} :=
  ⟨unit_isFinite, rayInFace_proper, startingAt_zero_bounded,
    intersect_exact unit_isFinite rayInFace_proper startingAt_zero_bounded⟩

end Box

end TileTracer
