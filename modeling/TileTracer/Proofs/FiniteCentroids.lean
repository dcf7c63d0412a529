import TileTracer.Proofs.Binary32Monotone
import TileTracer.Proofs.BoxEnclosure
import TileTracer.Proofs.CommittedHits

/-!
Box trees are built in the order of centroids, and a centroid that is not a number has no place in
an order. What is finite in world space has numbers for its centroid, even where the box around it
is infinite. That instances are finite by themselves does not make them so in world space.
-/

namespace TileTracer

open Scalar OrderedScalar

namespace Binary32

variable {x y : Float32}

def greatest : Float32 := .ofBits 0x7F7FFFFF

theorem rank?_greatest : rank? greatest = some (infinitySteps - 1) := by
  decide

theorem rank?_neg_greatest : rank? (-greatest) = some (-(infinitySteps - 1)) := by
  decide

theorem neg_greatest_le (h : -infinity < x) : -greatest ≤ x := by
  obtain ⟨_, k, hlow, hk, hlt⟩ := lt_iff.mp h
  cases rank?_neg_infinity.symm.trans hlow
  exact le_iff.mpr ⟨_, k, rank?_neg_greatest, hk, by omega⟩

theorem le_greatest (h : x < infinity) : x ≤ greatest := by
  obtain ⟨k, _, hk, hhigh, hlt⟩ := lt_iff.mp h
  cases rank?_infinity.symm.trans hhigh
  exact le_iff.mpr ⟨k, _, hk, rank?_greatest, by omega⟩

theorem zero_le_or_le_zero (hx : x ≤ x) : 0.0 ≤ x ∨ x ≤ 0.0 := by
  by_cases h : 0.0 ≤ x
  · exact .inl h
  · exact .inr (le_of_lt (lt_of_not_le (by decide) hx h))

/-- Both values lie above negative infinity, or both below infinity. -/
def NotOpposite (x y : Float32) : Prop :=
  (-infinity < x ∧ -infinity < y) ∨ (x < infinity ∧ y < infinity)

theorem add_isNumber (h : NotOpposite x y) : x + y ≤ x + y := by
  have above {a b : Float32} (ha : a ≤ x) (hb : b ≤ y) (hlt : -infinity < a + b) :
      x + y ≤ x + y :=
    (MonotoneScalar.add_under (.of_le ha) (.of_le hb)).number_right hlt
  have below {a b : Float32} (ha : x ≤ a) (hb : y ≤ b) (hlt : a + b < infinity) :
      x + y ≤ x + y :=
    (MonotoneScalar.add_under (.of_le ha) (.of_le hb)).number_left hlt
  rcases h with ⟨hx, hy⟩ | ⟨hx, hy⟩
  · rcases zero_le_or_le_zero (le_self_of_lt hx).2 with hx₀ | hx₀
    · exact above hx₀ (neg_greatest_le hy) (by decide)
    rcases zero_le_or_le_zero (le_self_of_lt hy).2 with hy₀ | hy₀
    · exact above (neg_greatest_le hx) hy₀ (by decide)
    · exact below hx₀ hy₀ (by decide)
  · rcases zero_le_or_le_zero (le_self_of_lt hx).1 with hx₀ | hx₀
    · rcases zero_le_or_le_zero (le_self_of_lt hy).1 with hy₀ | hy₀
      · exact above hx₀ hy₀ (by decide)
      · exact below (le_greatest hx) hy₀ (by decide)
    · exact below hx₀ (le_greatest hy) (by decide)

theorem half_isNumber (hx : x ≤ x) : x * 0.5 ≤ x * 0.5 := by
  have hhalf : (0.0 : Float32) < 0.5 := by decide
  rcases zero_le_or_le_zero hx with h | h
  · have hunder := MonotoneScalar.mul_under_of_pos hhalf (.of_le h)
    exact hunder.number_right (t := -infinity) (by decide)
  · have hunder := MonotoneScalar.mul_under_of_pos hhalf (.of_le h)
    exact hunder.number_left (t := infinity) (by decide)

/-- Only one end of an interval around a finite number with a finite radius can be infinite. -/
theorem interval_notOpposite (hx : isFinite x = true) (hy : isFinite y = true) :
    NotOpposite (x - y) (x + y) := by
  obtain ⟨hxlow, hxhigh⟩ := isFinite_eq_true.mp hx
  obtain ⟨hylow, hyhigh⟩ := isFinite_eq_true.mp hy
  have hlow := Under.of_le (neg_greatest_le hylow)
  have hhigh := Under.of_le (le_greatest hyhigh)
  rcases zero_le_or_le_zero (le_self_of_lt hxlow).2 with h | h
  · exact .inl ⟨(MonotoneScalar.sub_under (.of_le h) hhigh).below (by decide),
      (MonotoneScalar.add_under (.of_le h) hlow).below (by decide)⟩
  · exact .inr ⟨(MonotoneScalar.sub_under (.of_le h) hlow).above (by decide),
      (MonotoneScalar.add_under (.of_le h) hhigh).above (by decide)⟩

theorem padded_notOpposite (hx : isFinite x = true) (hy : isFinite y = true) :
    NotOpposite (x - 1e-4) (y + 1e-4) := by
  have hlow {z : Float32} (hz : isFinite z = true) : Under (-greatest) z :=
    .of_le (neg_greatest_le (isFinite_eq_true.mp hz).1)
  exact .inl ⟨(MonotoneScalar.sub_under (hlow hx) (.refl 1e-4)).below (by decide +kernel),
    (MonotoneScalar.add_under (hlow hy) (.refl 1e-4)).below (by decide +kernel)⟩

end Binary32

/-! ## Finite solids -/

/-- Everything that gives the solid its place and size is finite. -/
def Solid.isFinite : Solid Float32 → Bool
  | sphere center radius => center.isFinite && Scalar.isFinite radius
  | triangle a b c => a.isFinite && b.isFinite && c.isFinite
  | volume bounds => bounds.isFinite

namespace Box

variable {box : Box Float32} {a b : Vec3 Float32}

/-- Along no axis is the box infinite at both ends. -/
def HalfBounded (box : Box Float32) : Prop :=
  ∀ axis, Binary32.NotOpposite (box.low.along axis) (box.high.along axis)

theorem HalfBounded.centroid_isNumber (h : box.HalfBounded) : box.centroid.IsNumber := by
  intro axis
  rw [centroid, Vec3.along_mul, Vec3.along_add]
  exact Binary32.half_isNumber (Binary32.add_isNumber (h axis))

theorem spanning_halfBounded
    (h : ∀ axis, Binary32.NotOpposite (a.along axis) (b.along axis)) :
    (spanning a b).HalfBounded := by
  intro axis
  rw [spanning, Vec3.along_lesser, Vec3.along_greater]
  exact (h axis).imp
    (fun ⟨ha, hb⟩ => ⟨lesser_of_both ha hb, greater_of_both ha hb⟩)
    (fun ⟨ha, hb⟩ => ⟨lesser_of_both (P := (· < infinity)) ha hb,
      greater_of_both (P := (· < infinity)) ha hb⟩)

end Box

theorem Solid.bounds_halfBounded {solid : Solid Float32} (h : solid.isFinite = true) :
    solid.bounds.HalfBounded := by
  cases solid with
  | sphere center radius =>
      obtain ⟨hcenter, hradius⟩ := Bool.and_eq_true_iff.mp h
      refine Box.spanning_halfBounded fun axis => ?_
      rw [Vec3.along_sub, Vec3.along_add, Vec3.along_splat]
      exact Binary32.interval_notOpposite (Vec3.isFinite_iff.mp hcenter axis) hradius
  | triangle a b c =>
      obtain ⟨hab, hc⟩ := Bool.and_eq_true_iff.mp h
      obtain ⟨ha, hb⟩ := Bool.and_eq_true_iff.mp hab
      have hfinite {v : Vec3 Float32} (hv : v.isFinite = true) := Vec3.isFinite_iff.mp hv
      refine Box.spanning_halfBounded fun axis => ?_
      simp only [Vec3.along_sub, Vec3.along_add, Vec3.along_splat, Vec3.along_lesser,
        Vec3.along_greater]
      exact Binary32.padded_notOpposite
        (lesser_isFinite (lesser_isFinite (hfinite ha axis) (hfinite hb axis)) (hfinite hc axis))
        (greater_isFinite (greater_isFinite (hfinite ha axis) (hfinite hb axis)) (hfinite hc axis))
  | volume bounds =>
      obtain ⟨hlow, hhigh⟩ := Bool.and_eq_true_iff.mp h
      exact fun axis => .inl ⟨(isFinite_eq_true.mp (Vec3.isFinite_iff.mp hlow axis)).1,
        (isFinite_eq_true.mp (Vec3.isFinite_iff.mp hhigh axis)).1⟩

theorem Primitive.centroid_isNumber {p : Primitive Float32} (h : p.solid.isFinite = true) :
    p.centroid.IsNumber :=
  (Solid.bounds_halfBounded h).centroid_isNumber

/-! ## The order of centroids -/

namespace BoxTree

variable {α : Type} [Scalar α] {axis : Axis} {p q : Primitive α}

/-- How the centroids compare along an axis; what cannot be compared counts as equal. -/
def centroidOrder (axis : Axis) (p q : Primitive α) : Ordering :=
  if p.centroid.along axis < q.centroid.along axis then .lt
  else if q.centroid.along axis < p.centroid.along axis then .gt
  else .eq

/-- The sort asks this order, and only for what comes first. -/
theorem sortAlong?_eq (axis : Axis) (items : List (Primitive α)) :
    sortAlong? axis items = Sorting.sort? (fun p q => (centroidOrder axis p q).isLT) items := by
  unfold sortAlong?
  congr 1
  funext p q
  unfold centroidOrder
  split
  · next h => exact decide_eq_true h
  · next h =>
    rw [decide_eq_false h]
    split <;> rfl

variable [OrderedScalar α]

theorem centroidOrder_swap (axis : Axis) (p q : Primitive α) :
    centroidOrder axis p q = (centroidOrder axis q p).swap := by
  unfold centroidOrder
  by_cases hpq : p.centroid.along axis < q.centroid.along axis
  · rw [if_pos hpq, if_neg (lt_asymm hpq), if_pos hpq]
    rfl
  · rw [if_neg hpq, if_neg hpq]
    split <;> rfl

theorem centroidOrder_isLE :
    (centroidOrder axis p q).isLE = true ↔ ¬ q.centroid.along axis < p.centroid.along axis := by
  unfold centroidOrder
  split
  · next h => exact iff_of_true rfl (lt_asymm h)
  · split
    · next h => exact iff_of_false (by decide) (not_not_intro h)
    · next h => exact iff_of_true rfl h

theorem transCmp_centroidOrder {items : List (Primitive α)}
    (h : ∀ p ∈ items, p.centroid.IsNumber) (axis : Axis) :
    Std.TransCmp fun p q : {p // p ∈ items} => centroidOrder axis p.1 q.1 where
  eq_swap := centroidOrder_swap axis _ _
  isLE_trans {p q r} hpq hqr := by
    rw [centroidOrder_isLE] at hpq hqr ⊢
    exact fun hrp => (lt_or_lt hrp (h q.1 q.2 axis)).elim hqr hpq

end BoxTree

/-! ## Commits of finite instances -/

/-- What the transform makes of the content is finite. -/
def Instance.StaysFinite (i : Instance) : Prop :=
  ∀ solids, i.content.solids i.transform = some solids → ∀ s ∈ solids, s.isFinite = true

instance (i : Instance) : Decidable i.StaysFinite :=
  decidable_of_iff ((i.content.solids i.transform).all (·.all Solid.isFinite)) <| by
    simp only [Option.all_eq_true, List.all_eq_true, Instance.StaysFinite]

theorem Instance.StaysFinite.of_mem_primitives {i : Instance} (hi : i.StaysFinite) {owner : Nat}
    {ps : List (Primitive Float32)} (hps : i.primitives owner = some ps) {p : Primitive Float32}
    (hp : p ∈ ps) : p.solid.isFinite = true := by
  obtain ⟨solids, hsolids, rfl⟩ := Option.map_eq_some_iff.mp hps
  obtain ⟨solid, hsolid, rfl⟩ := List.mem_map.mp hp
  exact hi solids hsolids solid hsolid

namespace Scene

variable {list : List Instance} {ps : List (Primitive Float32)}

theorem Flattened.centroids_areNumbers {keep : Instance → Bool} (hflat : Flattened keep list ps)
    (hfinite : ∀ i ∈ list, i.StaysFinite) : ∀ p ∈ ps, p.centroid.IsNumber := by
  intro p hp
  obtain ⟨i, hi, _, block, hblock, hp⟩ := hflat.mem_iff.mp hp
  exact Primitive.centroid_isNumber
    ((hfinite i (List.mem_of_getElem? hi)).of_mem_primitives hblock hp)

end Scene

namespace World

theorem TreeFails.of_numbers {w : World} {made : Nat} {ps : List (Primitive Float32)}
    {e : SceneError} (hfails : TreeFails w made ps e) (hps : ∀ p ∈ ps, p.centroid.IsNumber) :
    ∃ reason, w.policy made ps = some reason ∧ e = .build reason := by
  cases hfails with
  | refused h => exact ⟨_, h, rfl⟩
  | unordered _ hnone =>
      have hsortable : BoxTree.Sortable ps := .inr hps
      have hsome := BoxTree.ofList?_isSome hsortable
      rw [hnone] at hsome
      cases hsome

variable {w : World} {list : List Instance}

theorem CommitFails.refused {e : SceneError} {n : Nat} (hfails : CommitFails w e n)
    (hlist : Params.instances? w.params WorldOf.instancesKey = .ok (some list))
    (hvalid : ∀ i ∈ list, i.defect? = none) (hfinite : ∀ i ∈ list, i.StaysFinite) :
    ∃ made ps reason, w.policy made ps = some reason ∧ e = .build reason := by
  cases hfails with
  | wrongType hvalue hkind =>
      unfold Params.instances? Params.read? at hlist
      rw [hvalue] at hlist
      dsimp only at hlist
      split at hlist
      · next found hfound =>
        split at hfound
        · next instances => exact absurd rfl (hkind instances)
        · cases hfound
      · cases hlist
  | invalid hlist' hi hdefect _ =>
      cases hlist.symm.trans hlist'
      cases (hvalid _ (List.mem_of_getElem? hi)).symm.trans hdefect
  | geometry hlist' _ hflat htree =>
      cases hlist.symm.trans hlist'
      exact ⟨_, _, htree.of_numbers (hflat.centroids_areNumbers hfinite)⟩
  | volumes hlist' _ hflat htree =>
      cases hlist.symm.trans hlist'
      exact ⟨_, _, htree.of_numbers (hflat.centroids_areNumbers hfinite)⟩

/-- Of valid instances that stay finite in the world, all primitives have numbers for their
centroids, so their order along any axis is a total preorder. A commit never fails for lack of an
order, and succeeds if no tree is refused. -/
theorem commit_ordered (hvalid : ∀ i ∈ list, i.defect? = none)
    (hfinite : ∀ i ∈ list, i.StaysFinite) :
    (∀ keep, ∀ p ∈ Scene.primitives keep list, p.centroid.IsNumber) ∧
    (∀ keep axis, Std.TransCmp fun p q : {p // p ∈ Scene.primitives keep list} =>
      BoxTree.centroidOrder axis p.1 q.1) ∧
    ∀ w : World, Params.instances? w.params WorldOf.instancesKey = .ok (some list) →
      w.commit.1 ≠ .error .unordered ∧
        ((∀ made ps, w.policy made ps = none) →
          ∃ scene, w.commit.1 = .ok scene ∧ scene.DerivedFrom list) := by
  have hnumbers (keep : Instance → Bool) :
      ∀ p ∈ Scene.primitives keep list, p.centroid.IsNumber :=
    (Scene.primitives_flattened keep hvalid).centroids_areNumbers hfinite
  refine ⟨hnumbers, fun keep => BoxTree.transCmp_centroidOrder (hnumbers keep), ?_⟩
  intro w hlist
  rcases w.commit_cases with ⟨e, n, hcommit, hfails⟩ | ⟨found, scene, hfound, hderived, hcommit⟩
  · obtain ⟨made, ps, reason, hpolicy, rfl⟩ := hfails.refused hlist hvalid hfinite
    rw [hcommit]
    exact ⟨nofun, fun hopen => nomatch (hopen made ps).symm.trans hpolicy⟩
  · cases hlist.symm.trans hfound
    rw [hcommit]
    exact ⟨nofun, fun _ => ⟨scene, rfl, hderived⟩⟩

def ball (x radius : Float32) : Instance := .geometry "ball" (.sphere ⟨x, 0, 0⟩ radius)

/-- The box of the largest ball is infinite on one side. -/
theorem commit_ordered_half_bounded :
    let list := [ball 1e38 3e38, ball 4 1, ball 2 1, ball (-2) 1, ball (-4) 1]
    (∀ i ∈ list, i.defect? = none) ∧ (∀ i ∈ list, i.StaysFinite) ∧
      (∃ p ∈ Scene.primitives Instance.isGeometry list, p.bounds.high.x = infinity) ∧
      ∃ scene, (setInstances .empty list).commit.1 = .ok scene ∧ scene.DerivedFrom list := by
  intro list
  have hvalid : ∀ i ∈ list, i.defect? = none := by decide +kernel
  have hfinite : ∀ i ∈ list, i.StaysFinite := by decide +kernel
  have hlist : Params.instances? (setInstances .empty list).params WorldOf.instancesKey =
      .ok (some list) := rfl
  exact ⟨hvalid, hfinite, by decide +kernel,
    ((commit_ordered hvalid hfinite).2.2 _ hlist).2 fun _ _ => rfl⟩

/-- A valid ball too large to be scaled. -/
def overflowing : Instance :=
  (ball 0 3e38).withTransform ⟨⟨10, 0, 0, 0⟩, ⟨0, 10, 0, 0⟩, ⟨0, 0, 10, 0⟩, ⟨0, 0, 0, 1⟩⟩

def mixedBalls : List Instance :=
  [ball 6 1, ball 0 1, ball 0 1, ball 3 1, ball 6 1, ball 3 1, ball 6 1, ball 6 1, ball 6 1,
    ball 3 1, overflowing, ball 6 1, ball 6 1, overflowing, overflowing, ball 3 1, ball 0 1,
    ball 6 1, overflowing, ball 0 1, ball 3 1]

/-- Valid instances can have primitives whose centroids are no numbers. They count as equal to all
others, so the order is not transitive, and a commit can fail for that. -/
theorem commit_mixed_balls_unordered :
    (∀ i ∈ mixedBalls, i.defect? = none) ∧
      (∃ p ∈ Scene.primitives Instance.isGeometry mixedBalls, ¬ p.centroid.IsNumber) ∧
      (¬ Std.TransCmp fun p q : {p // p ∈ Scene.primitives Instance.isGeometry mixedBalls} =>
        BoxTree.centroidOrder .x p.1 q.1) ∧
      (setInstances .empty mixedBalls).commit.1 = .error .unordered := by
  refine ⟨by decide +kernel, by decide +kernel, ?_, ?_⟩
  · obtain ⟨p, hp, q, hq, r, hr, hpq, hqr, hpr⟩ :
        ∃ p ∈ Scene.primitives Instance.isGeometry mixedBalls,
          ∃ q ∈ Scene.primitives Instance.isGeometry mixedBalls,
          ∃ r ∈ Scene.primitives Instance.isGeometry mixedBalls,
          (BoxTree.centroidOrder .x p q).isLE = true ∧ (BoxTree.centroidOrder .x q r).isLE = true ∧
            (BoxTree.centroidOrder .x p r).isLE = false := by
      decide +kernel
    intro htrans
    have hle := htrans.isLE_trans (a := ⟨p, hp⟩) (b := ⟨q, hq⟩) (c := ⟨r, hr⟩) hpq hqr
    cases hpr.symm.trans hle
  · have hfails : (match (setInstances .empty mixedBalls).commit.1 with
        | .error e => some e
        | .ok _ => none) = some .unordered := by
      decide +kernel
    cases hcommit : (setInstances .empty mixedBalls).commit.1 with
    | error e =>
        rw [hcommit] at hfails
        rw [Option.some.inj hfails]
    | ok scene =>
        rw [hcommit] at hfails
        cases hfails

end World

end TileTracer
