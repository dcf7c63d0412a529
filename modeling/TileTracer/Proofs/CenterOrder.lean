import Mathlib.Data.List.Pairwise
import TileTracer.Proofs.Binary32Naturals
import TileTracer.Proofs.GridSweep

namespace TileTracer

/-- Sorting keeps the order of entries that compare as equal. -/
theorem pairwise_mergeSort_stable {α : Type} {le : α → α → Bool} {rel : α → α → Prop}
    (htrans : ∀ a b c, le a b = true → le b c = true → le a c = true)
    (htotal : ∀ a b, (le a b || le b a) = true) {entries : List α} (h : entries.Pairwise rel) :
    (entries.mergeSort le).Pairwise fun a b => le a b = true ∧ (le b a = true → rel a b) := by
  rw [List.pairwise_iff_forall_sublist]
  intro a b hab
  have hle : le a b = true :=
    List.pairwise_iff_forall_sublist.mp (List.pairwise_mergeSort htrans htotal entries) hab
  refine ⟨hle, fun hba => ?_⟩
  -- The entries that compare as equal to these two are in their old order after sorting.
  let alike (c : α) : Bool := le a c && le c a
  have halike : (entries.filter alike).Pairwise fun c d => le c d = true := by
    refine List.pairwise_of_forall_mem_list fun c hc d hd => ?_
    obtain ⟨-, hca⟩ := Bool.and_eq_true_iff.mp (List.mem_filter.mp hc).2
    obtain ⟨had, -⟩ := Bool.and_eq_true_iff.mp (List.mem_filter.mp hd).2
    exact htrans c a d hca had
  have hkept := (List.sublist_mergeSort htrans htotal halike List.filter_sublist).filter alike
  rw [List.filter_eq_self.mpr fun c hc => (List.mem_filter.mp hc).2] at hkept
  have hsame := hkept.eq_of_length ((List.mergeSort_perm entries le).filter alike).length_eq.symm
  have hself : le a a = true := htrans a b a hle hba
  have hpair : [a, b].filter alike = [a, b] :=
    List.filter_eq_self.mpr (by simp [alike, hself, hle, hba])
  have hsub := hab.filter alike
  rw [hpair, ← hsame] at hsub
  exact List.pairwise_iff_forall_sublist.mp h (hsub.trans List.filter_sublist)

namespace Region

open Binary32 Scalar

variable {width height : Nat} {r : Region} {regions : List Region}

/-! ## Distances -/

theorem half_within {x : Float32} {b : Nat} (h : Within x b) (hb : b ≤ 127) :
    Within (x / 2.0) (b + 1) := by
  obtain ⟨c, hc, hle⟩ := h
  have htwo : value? (2.0 : Float32) = some 2 := by decide +kernel
  obtain ⟨k, hk, hlands⟩ := quotient_lands hc htwo two_pos
  refine within_of_lands hk hlands ?_ hb
  rw [abs_div, abs_of_pos (two_pos : (0 : ℚ) < 2)]
  linarith [abs_nonneg c]

theorem within_offset {start length side : Nat} (hinside : start + length ≤ side)
    (hside : side < 2 ^ 32) :
    Within (ofNat start + ofNat length / 2.0 - ofNat side / 2.0) 38 := by
  have hnat {n : Nat} (hn : n ≤ side) : Within (ofNat n) 33 :=
    within_ofNat (b := 32) (by omega) (by decide)
  have hstart := (hnat (n := start) (by omega)).mono (show 33 ≤ 34 by decide)
  have hlength := half_within (hnat (n := length) (by omega)) (by decide)
  have hcenter := (half_within (hnat le_rfl) (by decide)).mono (show 34 ≤ 36 by decide)
  exact (hstart.add hlength (by decide)).sub hcenter (by decide)

theorem within_centerDistance (hr : r.Inside width height) (hwidth : width < 2 ^ 32)
    (hheight : height < 2 ^ 32) : Within (centerDistance width height r) 79 := by
  have hx := within_offset hr.1 hwidth
  have hy := within_offset hr.2 hheight
  exact (hx.mul hx (by decide)).add (hy.mul hy (by decide)) (by decide)

/-- How the distances of two regions compare; `none` if one of them is not a number. -/
def compareDistance? (width height : Nat) (a b : Region) : Option Ordering :=
  let d := centerDistance width height a
  let e := centerDistance width height b
  if d ≤ e then some (if e ≤ d then .eq else .lt)
  else if e ≤ d then some .gt
  else none

/-- The comparison that regions are sorted by: distances that do not compare count as equal. -/
def nearerOrEqual (width height : Nat) (a b : Region) : Bool :=
  ((compareDistance? width height a b).getD .eq).isLE

theorem nearerOrEqual_iff {a b : Region} :
    nearerOrEqual width height a b = true ↔
      ¬ centerDistance width height b < centerDistance width height a := by
  unfold nearerOrEqual compareDistance?
  dsimp only
  generalize centerDistance width height a = d
  generalize centerDistance width height b = e
  by_cases hde : d ≤ e
  · rw [if_pos hde]
    refine iff_of_true ?_ (not_lt_of_le hde)
    split <;> rfl
  · rw [if_neg hde]
    by_cases hed : e ≤ d
    · rw [if_pos hed]
      have hlt := lt_of_not_le (self_le_of_le_right hed) (self_le_of_le_left hed) hde
      exact iff_of_false (by decide) (not_not.mpr hlt)
    · rw [if_neg hed]
      exact iff_of_true rfl (mt le_of_lt hed)

theorem centerOut_eq_mergeSort (width height : Nat) (regions : List Region) :
    centerOut width height regions = regions.mergeSort (nearerOrEqual width height) := by
  unfold centerOut
  congr 1
  funext a b
  rw [Bool.eq_iff_iff, nearerOrEqual_iff, Bool.not_eq_true', decide_eq_false_iff_not]

/-! ## The order of regions -/

def Comparable (width height : Nat) (regions : List Region) : Prop :=
  ∀ r ∈ regions, isFinite (centerDistance width height r) = true

namespace Comparable

variable {a b c : Region}

theorem number (h : Comparable width height regions) (hr : r ∈ regions) :
    centerDistance width height r ≤ centerDistance width height r :=
  le_self_of_isFinite (h r hr)

theorem nearerOrEqual_iff_le (h : Comparable width height regions) (ha : a ∈ regions)
    (hb : b ∈ regions) :
    nearerOrEqual width height a b = true ↔
      centerDistance width height a ≤ centerDistance width height b :=
  nearerOrEqual_iff.trans ⟨le_of_not_lt (h.number ha) (h.number hb), not_lt_of_le⟩

theorem exists_compareDistance (h : Comparable width height regions) (ha : a ∈ regions)
    (hb : b ∈ regions) : ∃ o, compareDistance? width height a b = some o := by
  unfold compareDistance?
  dsimp only
  split
  · exact ⟨_, rfl⟩
  · next hde =>
    rw [if_pos (le_of_lt (lt_of_not_le (h.number ha) (h.number hb) hde))]
    exact ⟨_, rfl⟩

end Comparable

def RowMajor (a b : Region) : Prop := a.y < b.y ∨ a.y = b.y ∧ a.x < b.x

/-- A region comes before another one that is farther away, or that is equally far away and lies
behind it in the grid. -/
def CenterOrder (width height : Nat) (a b : Region) : Prop :=
  centerDistance width height a ≤ centerDistance width height b ∧
    (centerDistance width height b ≤ centerDistance width height a → RowMajor a b)

theorem pairwise_grid {size : Nat} (width height : Nat) (hsize : 0 < size) :
    (grid width height size).Pairwise RowMajor := by
  rw [grid_eq, List.pairwise_flatMap]
  constructor
  · intro j _
    refine List.pairwise_map.mpr (List.pairwise_lt_range.imp fun {i i'} hlt => ?_)
    exact .inr ⟨rfl, Nat.mul_lt_mul_of_pos_right hlt hsize⟩
  · refine List.pairwise_lt_range.imp fun {j j'} hlt r hr r' hr' => ?_
    obtain ⟨i, -, rfl⟩ := List.mem_map.mp hr
    obtain ⟨i', -, rfl⟩ := List.mem_map.mp hr'
    exact .inl (Nat.mul_lt_mul_of_pos_right hlt hsize)

/-- On regions with places for their distances, sorting by the comparison is sorting by places. -/
theorem pairwise_centerOut (h : Comparable width height regions)
    (hrows : regions.Pairwise RowMajor) :
    (centerOut width height regions).Pairwise (CenterOrder width height) := by
  let place (r : Region) : Int := (rank? (centerDistance width height r)).getD 0
  have hplace {a b : Region} (ha : a ∈ regions) (hb : b ∈ regions) :
      centerDistance width height a ≤ centerDistance width height b ↔ place a ≤ place b := by
    obtain ⟨k, hk⟩ := le_self_iff.mp (h.number ha)
    obtain ⟨l, hl⟩ := le_self_iff.mp (h.number hb)
    simp [le_iff, place, hk, hl]
  have hsorted : centerOut width height regions =
      regions.mergeSort fun a b => decide (place a ≤ place b) := by
    rw [centerOut_eq_mergeSort, ← List.map_id (List.mergeSort _ _),
      List.map_mergeSort (s := fun a b => decide (place a ≤ place b)), List.map_id]
    intro a ha b hb
    rw [Bool.eq_iff_iff, h.nearerOrEqual_iff_le ha hb, hplace ha hb, decide_eq_true_iff]
    rfl
  have hmem {r : Region} : r ∈ centerOut width height regions ↔ r ∈ regions :=
    (centerOut_perm width height regions).mem_iff
  rw [hsorted] at hmem ⊢
  refine (pairwise_mergeSort_stable (fun a b c => ?_) (fun a b => ?_) hrows).imp_of_mem
    fun {a b} ha hb hab => ?_
  · simpa using fun hab hbc => Int.le_trans hab hbc
  · simpa using Int.le_total _ _
  · rw [decide_eq_true_iff, decide_eq_true_iff] at hab
    rwa [CenterOrder, hplace (hmem.mp ha) (hmem.mp hb), hplace (hmem.mp hb) (hmem.mp ha)]

theorem Comparable.of_numbered (h : Comparable width height (numbered regions)) :
    Comparable width height regions := by
  intro r hr
  obtain ⟨i, hi⟩ := List.mem_iff_getElem?.mp hr
  refine h { r with index := i } (List.mem_iff_getElem?.mpr ⟨i, ?_⟩)
  rw [numbered, List.getElem?_mapIdx, hi]
  rfl

theorem comparable_cover {size : Nat} (hwidth : width < 2 ^ 32) (hheight : height < 2 ^ 32) :
    Comparable width height (cover width height size) := fun _ hr =>
  (within_centerDistance (inside_of_mem_cover hr) hwidth hheight).isFinite

theorem pairwise_numbered (h : regions.Pairwise (CenterOrder width height)) :
    (numbered regions).Pairwise (CenterOrder width height) := by
  rw [List.pairwise_iff_getElem] at h ⊢
  intro i j hi hj hij
  simp only [numbered, List.length_mapIdx] at hi hj
  simp only [numbered, List.getElem_mapIdx]
  exact h i j hi hj hij

theorem pairwise_cover {size : Nat} (hwidth : width < 2 ^ 32) (hheight : height < 2 ^ 32) :
    (cover width height size).Pairwise (CenterOrder width height) := by
  refine pairwise_numbered (pairwise_centerOut ?_ (pairwise_grid width height (by omega)))
  intro r hr
  exact (comparable_cover hwidth hheight).of_numbered r
    ((centerOut_perm width height _).mem_iff.mpr hr)

/-- The loops that cut an image into regions end, and leave them in the order of a stable sort. The
distances that it compares are numbers, so any two of them compare, and the comparison is total and
transitive. Behind a region come those that are farther away, and of those equally far away the ones
behind it in the grid. -/
theorem sweepCover_centerOut (width height size : UInt32)
    (hrows : StepsFit height.toNat (max size 1).toNat)
    (hcolumns : 0 < height.toNat → StepsFit width.toNat (max size 1).toNat) :
    let nearer := nearerOrEqual width.toNat height.toNat
    ∃ (regions : List Region) (steps : Nat),
      (∀ fuel ≥ steps, sweepCover width height size fuel = some regions) ∧
      regions =
        numbered ((grid width.toNat height.toNat (max size.toNat 1)).mergeSort nearer) ∧
      Comparable width.toNat height.toNat regions ∧
      (∀ a ∈ regions, ∀ b ∈ regions,
        ∃ o, compareDistance? width.toNat height.toNat a b = some o) ∧
      (∀ a ∈ regions, ∀ b ∈ regions, nearer a b = true ∨ nearer b a = true) ∧
      (∀ a ∈ regions, ∀ b ∈ regions, ∀ c ∈ regions,
        nearer a b = true → nearer b c = true → nearer a c = true) ∧
      regions.Pairwise (CenterOrder width.toNat height.toNat) := by
  intro nearer
  have hnumbers : Comparable width.toNat height.toNat (cover width.toNat height.toNat size.toNat) :=
    comparable_cover width.toNat_lt height.toNat_lt
  refine ⟨_, cells height.toNat (max size 1).toNat + cells width.toNat (max size 1).toNat + 1,
    fun fuel hfuel => sweepCover_eq hrows hcolumns hfuel, ?_, hnumbers,
    fun a ha b hb => hnumbers.exists_compareDistance ha hb, fun a ha b hb => ?_,
    fun a ha b hb c hc => ?_, pairwise_cover width.toNat_lt height.toNat_lt⟩
  · rw [cover, centerOut_eq_mergeSort]
  · rw [hnumbers.nearerOrEqual_iff_le ha hb, hnumbers.nearerOrEqual_iff_le hb ha]
    by_cases hab : centerDistance width.toNat height.toNat a ≤
        centerDistance width.toNat height.toNat b
    · exact .inl hab
    · exact .inr (le_of_lt (lt_of_not_le (hnumbers.number ha) (hnumbers.number hb) hab))
  · rw [hnumbers.nearerOrEqual_iff_le ha hb, hnumbers.nearerOrEqual_iff_le hb hc,
      hnumbers.nearerOrEqual_iff_le ha hc]
    exact le_trans

/-- Three regions by three, of which the four at the corners are equally far from the center. -/
theorem sweepCover_centerOut_nine :
    StepsFit 192 64 ∧ ∃ (regions : List Region) (steps : Nat),
      (∀ fuel ≥ steps, sweepCover 192 192 64 fuel = some regions) ∧ regions.length = 9 ∧
      Comparable 192 192 regions ∧ regions.Pairwise (CenterOrder 192 192) := by
  have hfit : StepsFit 192 64 := by
    intro i hi
    omega
  obtain ⟨regions, steps, hends, hregions, hnumbers, -, -, -, hordered⟩ :=
    sweepCover_centerOut 192 192 64 hfit fun _ => hfit
  refine ⟨hfit, regions, steps, hends, ?_, hnumbers, hordered⟩
  rw [hregions, numbered, List.length_mapIdx, List.length_mergeSort, length_grid]
  rfl

end Region

end TileTracer
