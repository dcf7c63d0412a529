import TileTracer.Proofs.ExactGeometry

namespace TileTracer

open Scalar OrderedScalar

namespace Place

variable {l h u : Place}

theorem exists_end_mul_le (c : ℝ) {l h x : ℝ} (hl : l ≤ x) (hh : x ≤ h) :
    ∃ e, (e = l ∨ e = h) ∧ c * e ≤ c * x := by
  rcases le_total 0 c with hc | hc
  · exact ⟨l, .inl rfl, mul_le_mul_of_nonneg_left hl hc⟩
  · exact ⟨h, .inr rfl, mul_le_mul_of_nonpos_left hh hc⟩

/-- A linear form is not below its value at some corner. -/
theorem exists_corner_dot_le (c : Place) (hin : ∀ axis, l axis ≤ u axis ∧ u axis ≤ h axis) :
    ∃ e : Place, (∀ axis, e axis = l axis ∨ e axis = h axis) ∧ dot c e ≤ dot c u := by
  choose e hend hle using fun axis => exists_end_mul_le (c axis) (hin axis).1 (hin axis).2
  exact ⟨e, hend, add_le_add (add_le_add (hle .x) (hle .y)) (hle .z)⟩

theorem dot_neg_left (c u : Place) : dot (-c) u = -dot c u := by
  simp only [dot, Pi.neg_apply]
  ring

theorem exists_corner_le_dot (c : Place) (hin : ∀ axis, l axis ≤ u axis ∧ u axis ≤ h axis) :
    ∃ e : Place, (∀ axis, e axis = l axis ∨ e axis = h axis) ∧ dot c u ≤ dot c e := by
  obtain ⟨e, hend, hle⟩ := exists_corner_dot_le (-c) hin
  rw [dot_neg_left, dot_neg_left] at hle
  exact ⟨e, hend, neg_le_neg_iff.mp hle⟩

end Place

namespace Transform

/-- The entries that move points are finite and stand for these rows and this offset. -/
structure HasValues (m : Transform Exact) (rows : Axis → Place) (offset : Place) : Prop where
  x : m.x.head.HasValues fun axis => rows axis .x
  y : m.y.head.HasValues fun axis => rows axis .y
  z : m.z.head.HasValues fun axis => rows axis .z
  w : m.w.head.HasValues offset

variable {m : Transform Exact} {rows : Axis → Place} {offset u : Place} {p : Vec3 Exact}

theorem exists_values (h : m.isFinite = true) : ∃ rows offset, m.HasValues rows offset := by
  have hhead {c : Vec4 Exact} (hc : c.isFinite = true) : ∃ v, c.head.HasValues v :=
    Vec3.exists_values (Bool.and_eq_true_iff.mp hc).1
  simp only [isFinite, Bool.and_eq_true, and_assoc] at h
  obtain ⟨hx, hy, hz, hw⟩ := h
  obtain ⟨x, hx⟩ := hhead hx
  obtain ⟨y, hy⟩ := hhead hy
  obtain ⟨z, hz⟩ := hhead hz
  obtain ⟨w, hw⟩ := hhead hw
  exact ⟨fun axis => .of (x axis) (y axis) (z axis), w, hx, hy, hz, hw⟩

theorem along_apply (m : Transform Exact) (p : Vec3 Exact) (axis : Axis) :
    (m.apply p).along axis = m.w.head.along axis + (m.z.head.along axis * p.z +
      (m.y.head.along axis * p.y + m.x.head.along axis * p.x)) := by
  cases axis <;> rfl

theorem HasValues.apply (hm : m.HasValues rows offset) (hp : p.HasValues u) :
    (m.apply p).HasValues fun axis => offset axis + Place.dot (rows axis) u := by
  intro axis
  have hvalue := (hm.w axis).add (((hm.z axis).mul (hp .z)).add
    (((hm.y axis).mul (hp .y)).add ((hm.x axis).mul (hp .x))))
  have hdot : Place.dot (rows axis) u =
      rows axis .z * u .z + (rows axis .y * u .y + rows axis .x * u .x) := by
    unfold Place.dot
    ring
  dsimp only
  rw [along_apply, hdot]
  exact hvalue

theorem apply_isFinite (hm : m.isFinite = true) (hp : p.isFinite = true) :
    (m.apply p).isFinite = true := by
  obtain ⟨rows, offset, hm⟩ := exists_values hm
  obtain ⟨u, hu⟩ := Vec3.exists_values hp
  exact (hm.apply hu).isFinite

end Transform

namespace Box

section Corners

variable {α : Type} [Scalar α] {box : Box α}

omit [Scalar α] in
theorem mem_corners {p : Vec3 α} :
    p ∈ box.corners ↔
      ∀ axis, p.along axis = box.low.along axis ∨ p.along axis = box.high.along axis := by
  rw [Axis.forall_iff]
  simp only [corners, List.mem_flatMap, List.mem_map, List.mem_cons, List.not_mem_nil, or_false]
  constructor
  · rintro ⟨z, hz, y, hy, x, hx, rfl⟩
    exact ⟨hx, hy, hz⟩
  · rintro ⟨hx, hy, hz⟩
    exact ⟨p.z, hz, p.y, hy, p.x, hx, rfl⟩

theorem isFinite_of_mem_corners (hbox : box.isFinite = true) {p : Vec3 α} (hp : p ∈ box.corners) :
    p.isFinite = true := by
  obtain ⟨hlow, hhigh⟩ := Bool.and_eq_true_iff.mp hbox
  refine Vec3.isFinite_iff.mpr fun axis => ?_
  rcases mem_corners.mp hp axis with h | h <;> rw [h]
  · exact Vec3.isFinite_iff.mp hlow axis
  · exact Vec3.isFinite_iff.mp hhigh axis

theorem transformed_eq_foldl_join (box : Box α) (m : Transform α) :
    box.transformed m = (box.corners.map fun p => point (m.apply p)).foldl join empty :=
  List.foldl_map.symm

theorem foldl_join_faces (acc : Box α) (boxes : List (Box α)) (axis : Axis) :
    (∃ b ∈ acc :: boxes, (boxes.foldl join acc).low.along axis = b.low.along axis) ∧
      ∃ b ∈ acc :: boxes, (boxes.foldl join acc).high.along axis = b.high.along axis := by
  induction boxes generalizing acc with
  | nil => exact ⟨⟨acc, List.mem_cons_self, rfl⟩, ⟨acc, List.mem_cons_self, rfl⟩⟩
  | cons b boxes ih =>
      obtain ⟨⟨c, hc, hlow⟩, ⟨d, hd, hhigh⟩⟩ := ih (acc.join b)
      constructor
      · rcases List.mem_cons.mp hc with rfl | hc
        · rw [join, Vec3.along_lesser] at hlow
          rcases lesser_eq_or (acc.low.along axis) (b.low.along axis) with h | h
          · exact ⟨acc, List.mem_cons_self, hlow.trans h⟩
          · exact ⟨b, by simp, hlow.trans h⟩
        · exact ⟨c, by simp [hc], hlow⟩
      · rcases List.mem_cons.mp hd with rfl | hd
        · rw [join, Vec3.along_greater] at hhigh
          rcases greater_eq_or (acc.high.along axis) (b.high.along axis) with h | h
          · exact ⟨acc, List.mem_cons_self, hhigh.trans h⟩
          · exact ⟨b, by simp, hhigh.trans h⟩
        · exact ⟨d, by simp [hd], hhigh⟩

theorem isEmpty_eq_false :
    box.isEmpty = false ↔ ∀ axis, ¬ box.high.along axis < box.low.along axis := by
  rw [Axis.forall_iff, isEmpty, Bool.or_eq_false_iff, Bool.or_eq_false_iff, and_assoc]
  simp only [decide_eq_false_iff_not]
  rfl

variable [OrderedScalar α]

theorem contains_of_mem_corners (hbox : box.IsNumber) (hne : box.isEmpty = false) {p : Vec3 α}
    (hp : p ∈ box.corners) : box.Contains p := by
  have hle (axis : Axis) : box.low.along axis ≤ box.high.along axis :=
    le_of_not_lt (hbox.low axis) (hbox.high axis) (isEmpty_eq_false.mp hne axis)
  constructor <;> intro axis <;> rcases mem_corners.mp hp axis with h | h <;> rw [h]
  · exact hbox.low axis
  · exact hle axis
  · exact hle axis
  · exact hbox.high axis

theorem Contains.isFinite {p : Vec3 α} (h : box.Contains p) (hbox : box.isFinite = true) :
    p.isFinite = true := by
  obtain ⟨hlow, hhigh⟩ := Bool.and_eq_true_iff.mp hbox
  refine Vec3.isFinite_iff.mpr fun axis => isFinite_eq_true.mpr ⟨?_, ?_⟩
  · exact lt_of_lt_of_le (isFinite_eq_true.mp (Vec3.isFinite_iff.mp hlow axis)).1 (h.low axis)
  · exact lt_of_le_of_lt (h.high axis) (isFinite_eq_true.mp (Vec3.isFinite_iff.mp hhigh axis)).2

end Corners

variable {box : Box Exact} {m : Transform Exact} {p : Vec3 Exact} {l h e : Place}

theorem exists_mem_corners_of_values (hlow : box.low.HasValues l) (hhigh : box.high.HasValues h)
    (he : ∀ axis, e axis = l axis ∨ e axis = h axis) : ∃ q ∈ box.corners, q.HasValues e := by
  have hcomponent (axis : Axis) : ∃ c, (c = box.low.along axis ∨ c = box.high.along axis) ∧
      c.HasValue (e axis) := by
    rcases he axis with heq | heq <;> rw [heq]
    · exact ⟨_, .inl rfl, hlow axis⟩
    · exact ⟨_, .inr rfl, hhigh axis⟩
  choose c hend hvalue using hcomponent
  have halong (axis : Axis) : (⟨c .x, c .y, c .z⟩ : Vec3 Exact).along axis = c axis := by
    cases axis <;> rfl
  refine ⟨⟨c .x, c .y, c .z⟩, mem_corners.mpr fun axis => ?_, fun axis => ?_⟩
  · rw [halong]
    exact hend axis
  · rw [halong]
    exact hvalue axis

/-- Along every axis the image of a point of a box lies between those of two corners. -/
theorem exists_corners_around (hbox : box.isFinite = true) (hm : m.isFinite = true)
    (hp : box.Contains p) (axis : Axis) :
    (∃ q ∈ box.corners, (m.apply q).along axis ≤ (m.apply p).along axis) ∧
      ∃ q ∈ box.corners, (m.apply p).along axis ≤ (m.apply q).along axis := by
  obtain ⟨u, hu⟩ := Vec3.exists_values (hp.isFinite hbox)
  obtain ⟨hlow, hhigh⟩ := Bool.and_eq_true_iff.mp hbox
  obtain ⟨l, hl⟩ := Vec3.exists_values hlow
  obtain ⟨h, hh⟩ := Vec3.exists_values hhigh
  obtain ⟨rows, offset, hm⟩ := Transform.exists_values hm
  have hin (axis : Axis) : l axis ≤ u axis ∧ u axis ≤ h axis :=
    ⟨((hl axis).le_iff (hu axis)).mp (hp.low axis), ((hu axis).le_iff (hh axis)).mp (hp.high axis)⟩
  constructor
  · obtain ⟨e, he, hle⟩ := Place.exists_corner_dot_le (rows axis) hin
    obtain ⟨q, hq, hqe⟩ := exists_mem_corners_of_values hl hh he
    exact ⟨q, hq, ((hm.apply hqe axis).le_iff (hm.apply hu axis)).mpr (add_le_add_right hle _)⟩
  · obtain ⟨e, he, hle⟩ := Place.exists_corner_le_dot (rows axis) hin
    obtain ⟨q, hq, hqe⟩ := exists_mem_corners_of_values hl hh he
    exact ⟨q, hq, ((hm.apply hu axis).le_iff (hm.apply hqe axis)).mpr (add_le_add_right hle _)⟩

theorem transformed_isHull (hbox : box.isFinite = true) (hm : m.isFinite = true) :
    (box.transformed m).IsHull (box.corners.map fun q => point (m.apply q)) := by
  rw [transformed_eq_foldl_join]
  refine foldl_join_isHull (by simp [corners]) fun b hb => ?_
  obtain ⟨q, hq, rfl⟩ := List.mem_map.mp hb
  obtain ⟨u, hu⟩ := Vec3.exists_values (Transform.apply_isFinite hm (isFinite_of_mem_corners hbox hq))
  exact ⟨fun axis => (hu axis).isNumber, fun axis => (hu axis).isNumber⟩

theorem encloses_image (hbox : box.isFinite = true) (hm : m.isFinite = true)
    (hq : p ∈ box.corners) : (box.transformed m).Encloses (point (m.apply p)) :=
  (transformed_isHull hbox hm).encloses _ (List.mem_map_of_mem hq)

/-- The images of the corners are finite, so no face is left of the empty box from which the least
box around them is grown. -/
theorem transformed_faces (hbox : box.isFinite = true) (hm : m.isFinite = true) (axis : Axis) :
    (∃ q ∈ box.corners, (m.apply q).along axis = (box.transformed m).low.along axis) ∧
      ∃ q ∈ box.corners, (m.apply q).along axis = (box.transformed m).high.along axis := by
  have hcorner : box.low ∈ box.corners := mem_corners.mpr fun axis => .inl rfl
  have hencloses := encloses_image hbox hm hcorner
  have hfinite := isFinite_eq_true.mp (Vec3.isFinite_iff.mp
    (Transform.apply_isFinite hm (isFinite_of_mem_corners hbox hcorner)) axis)
  obtain ⟨⟨b, hb, hlow⟩, ⟨c, hc, hhigh⟩⟩ :=
    foldl_join_faces empty (box.corners.map fun q => point (m.apply q)) axis
  rw [← transformed_eq_foldl_join] at hlow hhigh
  constructor
  · rcases List.mem_cons.mp hb with rfl | hb
    · have hle := hencloses.low axis
      rw [hlow, empty, Vec3.along_splat] at hle
      exact absurd hfinite.2 (not_lt_of_le hle)
    · obtain ⟨q, hq, rfl⟩ := List.mem_map.mp hb
      exact ⟨q, hq, hlow.symm⟩
  · rcases List.mem_cons.mp hc with rfl | hc
    · have hle := hencloses.high axis
      rw [hhigh, empty, Vec3.along_splat] at hle
      exact absurd hfinite.1 (not_lt_of_le hle)
    · obtain ⟨q, hq, rfl⟩ := List.mem_map.mp hc
      exact ⟨q, hq, hhigh.symm⟩

/-- A transformed box holds the image of every point of the box, and no smaller box does: each of
its faces is reached by the image of a corner. -/
theorem transformed_tight (hbox : box.isFinite = true) (hne : box.isEmpty = false)
    (hm : m.isFinite = true) :
    (∀ p, box.Contains p → (box.transformed m).Contains (m.apply p)) ∧
      (∀ outer : Box Exact, (∀ p, box.Contains p → outer.Contains (m.apply p)) →
        outer.Encloses (box.transformed m)) ∧
      ∀ axis,
        (∃ q ∈ box.corners, box.Contains q ∧
          (m.apply q).along axis = (box.transformed m).low.along axis) ∧
        ∃ q ∈ box.corners, box.Contains q ∧
          (m.apply q).along axis = (box.transformed m).high.along axis := by
  have hcorner {q : Vec3 Exact} (hq : q ∈ box.corners) : box.Contains q :=
    contains_of_mem_corners (isNumber_of_isFinite hbox) hne hq
  refine ⟨fun p hp => ⟨fun axis => ?_, fun axis => ?_⟩, fun outer houter => ?_, fun axis => ?_⟩
  · obtain ⟨⟨q, hq, hle⟩, -⟩ := exists_corners_around hbox hm hp axis
    exact le_trans ((encloses_image hbox hm hq).low axis) hle
  · obtain ⟨-, q, hq, hle⟩ := exists_corners_around hbox hm hp axis
    exact le_trans hle ((encloses_image hbox hm hq).high axis)
  · refine (transformed_isHull hbox hm).least outer fun b hb => ?_
    obtain ⟨q, hq, rfl⟩ := List.mem_map.mp hb
    have hin := houter q (hcorner hq)
    exact ⟨hin.low, hin.high⟩
  · obtain ⟨⟨q, hq, hlow⟩, ⟨r, hr, hhigh⟩⟩ := transformed_faces hbox hm axis
    exact ⟨⟨q, hq, hcorner hq, hlow⟩, ⟨r, hr, hcorner hr, hhigh⟩⟩

/-- Mirrors the first axis, shears the second one along it, and moves the third one about. -/
noncomputable def skew : Transform Exact :=
  ⟨⟨-1.0, 0.5, 0.0, 0.0⟩, ⟨0.5, 2.0, -0.0, 0.0⟩, ⟨0.0, -2.0, 0.5, 0.0⟩, ⟨5.0, 0.0, -3.0, 1.0⟩⟩

theorem skew_isFinite : skew.isFinite = true := by
  simp [Transform.isFinite, Vec4.isFinite, skew, Exact.isFinite_ofScientific,
    Exact.isFinite_neg (Exact.isFinite_ofScientific _ _ _)]

theorem transformed_tight_skew :
    unit.isFinite = true ∧ unit.isEmpty = false ∧ skew.isFinite = true ∧
      (∀ p, unit.Contains p → (unit.transformed skew).Contains (skew.apply p)) ∧
      (∀ outer : Box Exact, (∀ p, unit.Contains p → outer.Contains (skew.apply p)) →
        outer.Encloses (unit.transformed skew)) ∧
      ∀ axis,
        (∃ q ∈ unit.corners, unit.Contains q ∧
          (skew.apply q).along axis = (unit.transformed skew).low.along axis) ∧
        ∃ q ∈ unit.corners, unit.Contains q ∧
          (skew.apply q).along axis = (unit.transformed skew).high.along axis :=
  ⟨unit_isFinite, unit_isEmpty, skew_isFinite,
    transformed_tight unit_isFinite unit_isEmpty skew_isFinite⟩

end Box

end TileTracer
