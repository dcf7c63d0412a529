import TileTracer.Proofs.ExactGeometry
import TileTracer.Proofs.VolumeEntry

namespace TileTracer

open Scalar OrderedScalar

/-- Everything is finite, a sphere has an inside, and a volume has points. -/
def Solid.WellFormed {α : Type} [Scalar α] : Solid α → Prop
  | sphere center radius =>
      center.isFinite = true ∧ Scalar.isFinite radius = true ∧ (0.0 : α) < radius
  | triangle a b c => a.isFinite = true ∧ b.isFinite = true ∧ c.isFinite = true
  | volume bounds => bounds.isFinite = true ∧ bounds.isEmpty = false

namespace Solid

variable {center a b c : Vec3 Exact} {radius : Exact} {u ua ub uc : Place} {r : ℝ}

/-! ## Boxes around spheres and triangles -/

theorem bounds_sphere (hcenter : center.HasValues u) (hradius : radius.HasValue r) :
    (sphere center radius).bounds.low.HasValues (fun axis => min (u axis - r) (u axis + r)) ∧
      (sphere center radius).bounds.high.HasValues fun axis => max (u axis - r) (u axis + r) :=
  have hr := Vec3.HasValues.splat hradius
  ⟨(hcenter.sub hr).lesser (hcenter.add hr), (hcenter.sub hr).greater (hcenter.add hr)⟩

noncomputable def pad : ℝ := 1e-4

theorem bounds_triangle (ha : a.HasValues ua) (hb : b.HasValues ub) (hc : c.HasValues uc) :
    (triangle a b c).bounds.low.HasValues (fun axis =>
        min (min (min (ua axis) (ub axis)) (uc axis) - pad)
          (max (max (ua axis) (ub axis)) (uc axis) + pad)) ∧
      (triangle a b c).bounds.high.HasValues fun axis =>
        max (min (min (ua axis) (ub axis)) (uc axis) - pad)
          (max (max (ua axis) (ub axis)) (uc axis) + pad) := by
  have hpad : (Vec3.splat (1e-4 : Exact)).HasValues fun _ => pad :=
    Vec3.HasValues.splat (.ofScientific 1 true 4)
  have hlow := ((ha.lesser hb).lesser hc).sub hpad
  have hhigh := ((ha.greater hb).greater hc).add hpad
  exact ⟨hlow.lesser hhigh, hlow.greater hhigh⟩

theorem WellFormed.bounds_isFinite {solid : Solid Exact} (h : solid.WellFormed) :
    solid.bounds.isFinite = true := by
  cases solid with
  | sphere center radius =>
      obtain ⟨hcenter, hradius, -⟩ := h
      obtain ⟨u, hu⟩ := Vec3.exists_values hcenter
      obtain ⟨r, hr⟩ := Exact.isFinite_iff.mp hradius
      obtain ⟨hlow, hhigh⟩ := bounds_sphere hu hr
      exact Bool.and_eq_true_iff.mpr ⟨hlow.isFinite, hhigh.isFinite⟩
  | triangle a b c =>
      obtain ⟨ha, hb, hc⟩ := h
      obtain ⟨ua, hua⟩ := Vec3.exists_values ha
      obtain ⟨ub, hub⟩ := Vec3.exists_values hb
      obtain ⟨uc, huc⟩ := Vec3.exists_values hc
      obtain ⟨hlow, hhigh⟩ := bounds_triangle hua hub huc
      exact Bool.and_eq_true_iff.mpr ⟨hlow.isFinite, hhigh.isFinite⟩
  | volume bounds => exact h.1

theorem WellFormed.bounds_isNumber {solid : Solid Exact} (h : solid.WellFormed) :
    solid.bounds.IsNumber :=
  Box.isNumber_of_isFinite h.bounds_isFinite

end Solid

/-! ## Hits lie in their boxes -/

namespace Primitive

variable {ray : Ray Exact} {w : Window Exact}

/-- Where a sphere is met lies at a finite parameter, no further from the centre than the radius
along any axis. -/
theorem sphereRoot_in_bounds {center : Vec3 Exact} {radius t : Exact} (hray : ray.Proper)
    (hsolid : (Solid.sphere center radius).WellFormed)
    (hroot : sphereRoot center radius ray w = some t) :
    Scalar.isFinite t = true ∧ (Solid.sphere center radius).bounds.Contains (ray.at t) := by
  obtain ⟨hcenter, hradius, hpos⟩ := hsolid
  obtain ⟨c, hc⟩ := Vec3.exists_values hcenter
  obtain ⟨r, hr⟩ := Exact.isFinite_iff.mp hradius
  obtain ⟨o, d, ho, hd, hlength⟩ := hray.exists_values
  have hrpos : 0 < r := (Exact.HasValue.zero.lt_iff hr).mp hpos
  have hoc := hc.sub ho
  have hhalf : (sphereHalf center ray).HasValue (Place.dot d (c - o)) := hd.dot hoc
  have hdiscriminant : (sphereDiscriminant center radius ray).HasValue
      (Place.dot d (c - o) * Place.dot d (c - o) -
        Place.dot d d * (Place.dot (c - o) (c - o) - r * r)) :=
    (hhalf.mul hhalf).sub ((hd.dot hd).mul ((hoc.dot hoc).sub (hr.mul hr)))
  obtain ⟨hnonneg, hnearOrFar, -⟩ := met_of_sphereRoot hroot
  rw [hdiscriminant.lt_iff .zero, not_lt] at hnonneg
  have hsqrt := hdiscriminant.sqrt hnonneg
  -- Both roots have this form, with the two square roots of the discriminant.
  obtain ⟨s, x, hs, hx, ht⟩ : ∃ s x : ℝ, s * s = Place.dot d (c - o) * Place.dot d (c - o) -
      Place.dot d d * (Place.dot (c - o) (c - o) - r * r) ∧
      x = (Place.dot d (c - o) + s) / Place.dot d d ∧ t.HasValue x := by
    rcases hnearOrFar with rfl | rfl
    · exact ⟨_, _, (neg_mul_neg _ _).trans (Real.mul_self_sqrt hnonneg), rfl,
        sub_eq_add_neg (Place.dot d (c - o)) _ ▸ (hhalf.sub hsqrt).div (hd.dot hd) hlength.ne'⟩
    · exact ⟨_, _, Real.mul_self_sqrt hnonneg, rfl,
        (hhalf.add hsqrt).div (hd.dot hd) hlength.ne'⟩
  have hsphere := Place.on_sphere hlength.ne' hs hx
  refine ⟨ht.isFinite, ?_⟩
  obtain ⟨hlow, hhigh⟩ := Solid.bounds_sphere hc hr
  refine Box.contains_of_values hlow hhigh (Vec3.HasValues.ray_at ho hd ht) fun axis => ?_
  have hin := Place.abs_le_of_dot_self hsphere axis
  rw [abs_of_pos hrpos, abs_le, Pi.sub_apply] at hin
  exact ⟨min_le_iff.mpr (.inl (by linarith)), le_max_iff.mpr (.inr (by linarith))⟩

theorem triangleMet_in_bounds {a b c : Vec3 Exact} (hray : ray.Proper)
    (hsolid : (Solid.triangle a b c).WellFormed) (hmet : TriangleMet a b c ray w) :
    Scalar.isFinite (triangleT a b c ray) = true ∧
      (Solid.triangle a b c).bounds.Contains (ray.at (triangleT a b c ray)) := by
  obtain ⟨ha, hb, hc⟩ := hsolid
  obtain ⟨ua, hua⟩ := Vec3.exists_values ha
  obtain ⟨ub, hub⟩ := Vec3.exists_values hb
  obtain ⟨uc, huc⟩ := Vec3.exists_values hc
  obtain ⟨o, d, ho, hd, -⟩ := hray.exists_values
  have hne : Place.dot (ub - ua) (Place.cross d (uc - ua)) ≠ 0 := by
    intro hzero
    have hdet := triangleDet_value hua hub huc hd
    refine hmet.det ((hdet.abs.lt_iff (.ofScientific 1 true 8)).mpr ?_)
    rw [hzero, abs_zero]
    norm_num
  obtain ⟨hu, hv, ht⟩ := triangle_values hua hub huc ho hd hne
  refine ⟨ht.isFinite, ?_⟩
  have hat := Vec3.HasValues.ray_at ho hd ht
  rw [Place.on_plane rfl hne] at hat
  have hupos := (Exact.HasValue.zero.le_iff hu).mp hmet.u_nonneg
  have hvpos := mt (hv.lt_iff .zero).mpr hmet.v_nonneg
  have hsum := mt (Exact.HasValue.one.lt_iff (hu.add hv)).mpr hmet.sum_le
  rw [not_lt] at hvpos hsum
  obtain ⟨hlow, hhigh⟩ := Solid.bounds_triangle hua hub huc
  refine Box.contains_of_values hlow hhigh hat fun axis => ?_
  simp only [Pi.add_apply, Pi.sub_apply, Pi.smul_apply, smul_eq_mul]
  obtain ⟨hbelow, habove⟩ := Place.between_corners hupos hvpos hsum (ua axis) (ub axis) (uc axis)
  have hpad : 0 ≤ Solid.pad := by norm_num [Solid.pad]
  exact ⟨min_le_iff.mpr (.inl (by linarith)), le_max_iff.mpr (.inr (by linarith))⟩

/-- A hit lies at a finite parameter, in the box of its primitive. -/
theorem hit_in_bounds {p : Primitive Exact} {h : Hit Exact} (hray : ray.Proper)
    (hsolid : p.solid.WellFormed) (hhit : p.intersect ray w = some h) :
    Scalar.isFinite h.t = true ∧ p.bounds.Contains h.point := by
  rcases p with ⟨solid, owner⟩
  cases solid with
  | sphere center radius =>
      obtain ⟨t, hroot, rfl⟩ := Option.map_eq_some_iff.mp hhit
      exact sphereRoot_in_bounds hray hsolid hroot
  | triangle a b c =>
      obtain ⟨hmet, rfl⟩ := intersectTriangle_eq_some_iff.mp hhit
      exact triangleMet_in_bounds hray hsolid hmet
  | volume bounds =>
      obtain ⟨v, hv, -, rfl⟩ := intersectVolume_eq_some.mp hhit
      obtain ⟨hlower, -, hle⟩ := Box.finite_of_intersect hsolid.1 hray hv
      have hadmits : v.Admits v.lower := ⟨lt_irrefl _, not_lt_of_le hle⟩
      exact ⟨hlower, (Box.contains_iff_slabs hsolid.1 hray.origin hray.direction hlower).mpr
        ((Box.admits_intersect_iff hv).mp hadmits).2⟩

theorem bounds_meets {p : Primitive Exact} {h : Hit Exact} (hray : ray.Proper)
    (hsolid : p.solid.WellFormed) (hhit : p.intersect ray w = some h) :
    p.bounds.meets ray w = true := by
  by_cases hvolume : p.IsVolume
  · obtain ⟨solid, owner⟩ := p
    obtain ⟨bounds, rfl⟩ := hvolume
    obtain ⟨v, hv, -⟩ := intersectVolume_eq_some.mp hhit
    exact Option.isSome_iff_exists.mpr ⟨v, hv⟩
  · have hmet := metIn_of_intersect hvolume hhit
    obtain ⟨ht, hin⟩ := hit_in_bounds hray hsolid hhit
    rw [point_of_intersect hhit] at hin
    exact Box.meets_of_contains hsolid.bounds_isFinite hray.origin hray.direction ht
      ⟨lt_asymm hmet.lower, lt_asymm hmet.upper⟩ hin

/-- A volume is met where the ray is inside it at two parameters of the window. -/
theorem exists_hit_of_inside {bounds : Box Exact} {owner : Nat} {t t' : Exact} {x x' : ℝ}
    (hbounds : bounds.isFinite = true) (hray : ray.Proper) (ht : t.HasValue x)
    (ht' : t'.HasValue x') (hlt : x < x') (hw : w.Admits t) (hw' : w.Admits t')
    (hin : bounds.Contains (ray.at t)) (hin' : bounds.Contains (ray.at t')) :
    ∃ h, intersect ⟨.volume bounds, owner⟩ ray w = some h := by
  have hslabs := (Box.contains_iff_slabs hbounds hray.origin hray.direction ht.isFinite).mp hin
  have hslabs' := (Box.contains_iff_slabs hbounds hray.origin hray.direction ht'.isFinite).mp hin'
  obtain ⟨v, hv⟩ := Box.exists_intersect ht.isNumber hw hslabs
  obtain ⟨-, -, hle⟩ := Box.finite_of_intersect hbounds hray hv
  have hbefore := ((Box.admits_intersect_iff hv).mpr ⟨hw, hslabs⟩).lower
  have hafter := ((Box.admits_intersect_iff hv).mpr ⟨hw', hslabs'⟩).upper
  have hlower : v.lower < t' :=
    lt_of_le_of_lt (le_of_not_lt (self_le_of_le_left hle) ht.isNumber hbefore)
      ((ht.lt_iff ht').mpr hlt)
  have hupper : v.lower < v.upper :=
    lt_of_lt_of_le hlower (le_of_not_lt ht'.isNumber (self_le_of_le_right hle) hafter)
  exact ⟨_, intersectVolume_eq_some.mpr ⟨v, hv, fun h => not_lt_of_le h hupper, rfl⟩⟩

end Primitive

/-! ## Searches -/

namespace BoxTree

section Agreement

variable {α : Type} [Scalar α] {ps : List (Primitive α)} {ray : Ray α} {w : Window α}
  {r r' : Option (Hit α)}

/-- Only one primitive is met in the window up to a parameter. -/
def Sole (ps : List (Primitive α)) (ray : Ray α) (w : Window α) (t : α) : Prop :=
  ∀ p ∈ ps, ∀ q ∈ ps, ∀ f g, p.intersect ray w = some f → q.intersect ray w = some g →
    f.t ≤ t → g.t ≤ t → p = q

/-- Both searches find nothing, or both find hits at one parameter, and the same hit unless several
primitives are met there. Where a volume is left may depend on the order of the search. -/
structure Agree (ps : List (Primitive α)) (ray : Ray α) (w : Window α) (r r' : Option (Hit α)) :
    Prop where
  none_iff : r = none ↔ r' = none
  same_t : ∀ h g, r = some h → r' = some g → h.t ≤ g.t ∧ g.t ≤ h.t
  same_entry : ∀ h g, r = some h → r' = some g → Sole ps ray w h.t → h.SameEntry g

theorem IsNearest.none_of_none (h : IsNearest ps ray w r) (hnone : r = none)
    (h' : IsNearest ps ray w r') : r' = none := by
  subst hnone
  exact h'.eq_none h

theorem IsNearest.agree (h : IsNearest ps ray w r) (h' : IsNearest ps ray w r') :
    Agree ps ray w r r' where
  none_iff := ⟨fun hr => h.none_of_none hr h', fun hr' => h'.none_of_none hr' h⟩
  same_t := by
    rintro f g rfl rfl
    obtain ⟨⟨p, hp, full, hfull, hsame⟩, hleast⟩ := h
    obtain ⟨⟨q, hq, full', hfull', hsame'⟩, hleast'⟩ := h'
    exact ⟨hsame'.t_eq ▸ hleast q hq full' hfull', hsame.t_eq ▸ hleast' p hp full hfull⟩
  same_entry := by
    rintro f g rfl rfl hsole
    obtain ⟨⟨p, hp, full, hfull, hsame⟩, hleast⟩ := h
    obtain ⟨⟨q, hq, full', hfull', hsame'⟩, hleast'⟩ := h'
    have hf : full.t ≤ f.t := by
      have hself := hleast p hp full hfull
      rwa [hsame.t_eq] at hself ⊢
    have hg : full'.t ≤ f.t := by
      have hle := hleast' p hp full hfull
      rwa [hsame'.t_eq, ← hsame.t_eq] at hle
    obtain rfl := hsole p hp q hq full full' hfull hfull' hf hg
    obtain rfl : full = full' := Option.some.inj (hfull.symm.trans hfull')
    exact hsame.trans hsame'.symm

end Agreement

variable {ps : List (Primitive Exact)} {tree : BoxTree Exact} {ray : Ray Exact}

theorem sortable_of_wellFormed (hps : ∀ p ∈ ps, p.solid.WellFormed) : Sortable ps := by
  refine .inr fun p hp axis => ?_
  obtain ⟨hlow, hhigh⟩ := Bool.and_eq_true_iff.mp (hps p hp).bounds_isFinite
  obtain ⟨l, hl⟩ := Vec3.exists_values hlow
  obtain ⟨h, hh⟩ := Vec3.exists_values hhigh
  rw [Primitive.centroid, Box.centroid, Vec3.along_mul, Vec3.along_add]
  exact (((hl axis).add (hh axis)).mul (.ofScientific 5 true 1)).isNumber

theorem conservative_of_wellFormed (htree : ofList? ps = some tree)
    (hps : ∀ p ∈ ps, p.solid.WellFormed) (hray : ray.Proper) (w : Window Exact) :
    tree.Conservative ray w := by
  intro node hnode p hp m hsome
  obtain ⟨h, hhit⟩ := Option.isSome_iff_exists.mp hsome
  have hnumbers (q : Primitive Exact) (hq : q ∈ ps) : q.bounds.IsNumber :=
    (hps q hq).bounds_isNumber
  have hsolid := hps p ((perm_of_ofList? htree).mem_iff.mp (mem_items_of_mem_nodes hnode hp))
  exact Box.meets_of_encloses hray.invertible (encloses_of_ofList? htree hnumbers hnode hp)
    (Primitive.bounds_meets hray hsolid hhit)

/-- In exact arithmetic a hit lies in the box of its primitive, and every box around that is met in
the same window. So a tree can be built over any list of primitives, and a search in it is a scan of
its leaves and agrees with a scan of the list. -/
theorem hits_enclosed :
    (∀ p : Primitive Exact, p.solid.WellFormed → ∀ ray : Ray Exact, ray.Proper → ∀ w h,
      p.intersect ray w = some h →
        p.bounds.Contains h.point ∧
          ∀ outer : Box Exact, outer.Encloses p.bounds → outer.meets ray w = true) ∧
    ∀ ps : List (Primitive Exact), (∀ p ∈ ps, p.solid.WellFormed) →
      ∃ tree, ofList? ps = some tree ∧ tree.items.Perm ps ∧
        ∀ ray : Ray Exact, ray.Proper → ∀ w, w.Bounded →
          tree.intersect ray w = scan tree.items ray w ∧
            Agree ps ray w (tree.intersect ray w) (scan ps ray w) := by
  constructor
  · intro p hsolid ray hray w h hhit
    exact ⟨(Primitive.hit_in_bounds hray hsolid hhit).2, fun outer houter =>
      Box.meets_of_encloses hray.invertible houter (Primitive.bounds_meets hray hsolid hhit)⟩
  · intro ps hps
    obtain ⟨tree, htree⟩ :=
      Option.isSome_iff_exists.mp (ofList?_isSome (sortable_of_wellFormed hps))
    have hperm := perm_of_ofList? htree
    refine ⟨tree, htree, hperm, fun ray hray w hw => ?_⟩
    have hconservative := conservative_of_wellFormed htree hps hray w
    exact ⟨intersect_eq_scan hw hconservative,
      ((intersect_isNearest hw hconservative).of_perm hperm).agree (scan_isNearest hw ps)⟩

noncomputable section

def unitVolume : Primitive Exact := ⟨.volume Box.unit, 0⟩

def mixedSolids : List (Primitive Exact) :=
  [unitVolume, ⟨.sphere (.splat 0.0) 1.0, 1⟩,
    ⟨.triangle (.splat 0.0) (.splat 1.0) ⟨1.0, 0.0, 0.0⟩, 2⟩]

end

theorem mixedSolids_wellFormed : ∀ p ∈ mixedSolids, p.solid.WellFormed := by
  have hzero := Exact.HasValue.zero
  have hone := Exact.HasValue.one
  have hcorner : (⟨1.0, 0.0, 0.0⟩ : Vec3 Exact).isFinite = true :=
    Vec3.isFinite_iff.mpr (Axis.forall_iff.mpr ⟨hone.isFinite, hzero.isFinite, hzero.isFinite⟩)
  refine List.forall_mem_cons.mpr ⟨⟨Box.unit_isFinite, Box.unit_isEmpty⟩, List.forall_mem_cons.mpr
    ⟨⟨(Vec3.HasValues.splat hzero).isFinite, hone.isFinite, (hzero.lt_iff hone).mpr one_pos⟩,
      List.forall_mem_singleton.mpr ⟨(Vec3.HasValues.splat hzero).isFinite,
        (Vec3.HasValues.splat hone).isFinite, hcorner⟩⟩⟩

theorem rayInFace_in_unit {t : Exact} {x : ℝ} (ht : t.HasValue x) (hlow : 0.5 ≤ x) (hhigh : x ≤ 1) :
    Box.unit.Contains (Box.rayInFace.at t) := by
  have horigin : Box.rayInFace.origin.HasValues (.of 0 0.5 (-1)) :=
    Axis.forall_iff.mpr ⟨.zero, .ofScientific 5 true 1, Exact.HasValue.one.neg⟩
  have hdirection : Box.rayInFace.direction.HasValues (.of (-0) 0 2.0) :=
    Axis.forall_iff.mpr ⟨Exact.HasValue.zero.neg, .zero, .ofScientific 20 true 1⟩
  refine Box.contains_of_values (.splat .zero) (.splat .one) (.ray_at horigin hdirection ht) ?_
  intro axis
  cases axis <;> simp only [Place.of, Pi.add_apply, Pi.smul_apply, smul_eq_mul] <;>
    constructor <;> linarith

theorem unitVolume_met : ∃ h, unitVolume.intersect Box.rayInFace (.startingAt 0.0) = some h := by
  have hhalf := Exact.HasValue.ofScientific 5 true 1
  have hone := Exact.HasValue.one
  have hwindow {t : Exact} {x : ℝ} (ht : t.HasValue x) (hnonneg : 0 ≤ x) :
      (Window.startingAt (0.0 : Exact)).Admits t :=
    ⟨mt (ht.lt_iff .zero).mp (not_lt_of_ge hnonneg),
      not_lt_of_le (MonotoneScalar.le_infinity ht.isNumber)⟩
  exact Primitive.exists_hit_of_inside Box.unit_isFinite Box.rayInFace_proper hhalf hone
    (by norm_num) (hwindow hhalf (by norm_num)) (hwindow hone zero_le_one)
    (rayInFace_in_unit hhalf le_rfl (by norm_num)) (rayInFace_in_unit hone (by norm_num) le_rfl)

theorem hits_enclosed_mixed_solids :
    (unitVolume.solid.WellFormed ∧ Box.rayInFace.Proper ∧
      ∃ h, unitVolume.intersect Box.rayInFace (.startingAt 0.0) = some h ∧
        unitVolume.bounds.Contains h.point ∧
          ∀ outer : Box Exact, outer.Encloses unitVolume.bounds →
            outer.meets Box.rayInFace (.startingAt 0.0) = true) ∧
    (∀ p ∈ mixedSolids, p.solid.WellFormed) ∧ (Window.startingAt (0.0 : Exact)).Bounded ∧
      ∃ tree, ofList? mixedSolids = some tree ∧ tree.items.Perm mixedSolids ∧
        tree.intersect Box.rayInFace (.startingAt 0.0) =
          scan tree.items Box.rayInFace (.startingAt 0.0) ∧
        Agree mixedSolids Box.rayInFace (.startingAt 0.0)
          (tree.intersect Box.rayInFace (.startingAt 0.0))
          (scan mixedSolids Box.rayInFace (.startingAt 0.0)) := by
  obtain ⟨hhits, hsearches⟩ := hits_enclosed
  have hsolid : unitVolume.solid.WellFormed := mixedSolids_wellFormed _ List.mem_cons_self
  obtain ⟨h, hhit⟩ := unitVolume_met
  obtain ⟨tree, htree, hperm, hagree⟩ := hsearches mixedSolids mixedSolids_wellFormed
  exact ⟨⟨hsolid, Box.rayInFace_proper, h, hhit, hhits _ hsolid _ Box.rayInFace_proper _ h hhit⟩,
    mixedSolids_wellFormed, Box.startingAt_zero_bounded, tree, htree, hperm,
    hagree _ Box.rayInFace_proper _ Box.startingAt_zero_bounded⟩

end BoxTree

end TileTracer
