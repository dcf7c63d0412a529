import Mathlib.Algebra.Order.Floor.Div
import Mathlib.Data.UInt
import TileTracer.Proofs.RegionPartition

namespace TileTracer.Region

/-- Cuts regions out of one row of the grid, from column `x` on, behind those cut out before; `none`
if the row does not end within so many steps. -/
def sweepRow (width size y height : UInt32) : Nat → UInt32 → List Region → Option (List Region)
  | 0, _, _ => none
  | fuel + 1, x, regions =>
    if x < width then
      sweepRow width size y height fuel (x + size) (regions ++
        [{ x := x.toNat, y := y.toNat, width := (min size (width - x)).toNat,
           height := height.toNat, index := regions.length }])
    else some regions

/-- Cuts regions out of the image row by row, from row `y` on; `none` if the image does not end
within so many steps. -/
def sweep (width height size : UInt32) : Nat → UInt32 → List Region → Option (List Region)
  | 0, _, _ => none
  | fuel + 1, y, regions =>
    if y < height then do
      let regions ← sweepRow width size y (min size (height - y)) fuel 0 regions
      sweep width height size fuel (y + size) regions
    else some regions

def sweepCover (width height size : UInt32) (fuel : Nat) : Option (List Region) :=
  (sweep width height (max size 1) fuel 0 []).map fun regions =>
    numbered (centerOut width.toNat height.toNat regions)

/-- No step along a side wraps around at 32 bits. -/
def StepsFit (length size : Nat) : Prop :=
  ∀ i, i * size < length → (i + 1) * size < 2 ^ 32

def bare (r : Region) : Region := { r with index := 0 }

theorem bare_cell (width height size i j : Nat) :
    (cell width height size i j).bare = cell width height size i j := rfl

theorem toNat_step {length size i : Nat} {x s : UInt32} (hsize : s.toNat = size)
    (hx : x.toNat = i * size) (hlt : x.toNat < length) (hfit : StepsFit length size) :
    (x + s).toNat = (i + 1) * size := by
  have hstep := hfit i (hx ▸ hlt)
  rw [UInt32.toNat_add, hx, hsize, ← Nat.succ_mul]
  exact Nat.mod_eq_of_lt hstep

theorem toNat_cut {length size i : Nat} {l x s : UInt32} (hsize : s.toNat = size)
    (hlength : l.toNat = length) (hx : x.toNat = i * size) (hlt : x < l) :
    (min s (l - x)).toNat = (cut length size i).2 := by
  rw [UInt32.toNat_min, UInt32.toNat_sub_of_le _ _ (UInt32.le_of_lt hlt), hsize, hlength, hx]
  rfl

variable {width height size : UInt32}

theorem sweepRow_eq (hsize : 0 < size.toNat) (hfit : StepsFit width.toNat size.toNat)
    {y : UInt32} {j : Nat} (hy : y.toNat = j * size.toNat) (hrow : y < height) {fuel i : Nat}
    (hi : i ≤ cells width.toNat size.toNat) (hfuel : cells width.toNat size.toNat < i + fuel)
    {x : UInt32} (hx : x.toNat = i * size.toNat) (regions : List Region) :
    (sweepRow width size y (min size (height - y)) fuel x regions).map (List.map bare) =
      some (regions.map bare ++
        (List.range' i (cells width.toNat size.toNat - i)).map fun i =>
          cell width.toNat height.toNat size.toNat i j) := by
  induction fuel generalizing i x regions with
  | zero => omega
  | succ fuel ih =>
      rw [sweepRow]
      split
      · rename_i hlt
        have hcell : i < cells width.toNat size.toNat :=
          (lt_cells_iff hsize).mpr (hx ▸ UInt32.lt_iff_toNat_lt.mp hlt)
        have hcount : cells width.toNat size.toNat - i =
            cells width.toNat size.toNat - (i + 1) + 1 := by omega
        rw [ih hcell (by omega) (toNat_step rfl hx (UInt32.lt_iff_toNat_lt.mp hlt) hfit), hcount,
          List.range'_succ, List.map_append, List.map_singleton, List.map_cons,
          List.append_assoc, List.singleton_append, ← bare_cell, cell,
          ← toNat_cut rfl rfl hx hlt, ← toNat_cut rfl rfl hy hrow, hx, hy]
        rfl
      · rename_i hge
        have hend : ¬ i < cells width.toNat size.toNat := fun hlt =>
          hge (UInt32.lt_iff_toNat_lt.mpr (hx ▸ (lt_cells_iff hsize).mp hlt))
        have hcount : cells width.toNat size.toNat - i = 0 := by omega
        simp [hcount]

theorem sweep_eq (hsize : 0 < size.toNat) (hrows : StepsFit height.toNat size.toNat)
    (hcolumns : 0 < height.toNat → StepsFit width.toNat size.toNat) {fuel j : Nat}
    (hj : j ≤ cells height.toNat size.toNat)
    (hfuel : cells height.toNat size.toNat + cells width.toNat size.toNat < j + fuel)
    {y : UInt32} (hy : y.toNat = j * size.toNat) (regions : List Region) :
    (sweep width height size fuel y regions).map (List.map bare) =
      some (regions.map bare ++
        (List.range' j (cells height.toNat size.toNat - j)).flatMap fun j =>
          (List.range (cells width.toNat size.toNat)).map fun i =>
            cell width.toNat height.toNat size.toNat i j) := by
  induction fuel generalizing j y regions with
  | zero => omega
  | succ fuel ih =>
      rw [sweep]
      split
      · rename_i hlt
        have hlt' := UInt32.lt_iff_toNat_lt.mp hlt
        have hcell : j < cells height.toNat size.toNat := (lt_cells_iff hsize).mpr (hy ▸ hlt')
        have hcount : cells height.toNat size.toNat - j =
            cells height.toNat size.toNat - (j + 1) + 1 := by omega
        have hzero : (0 : UInt32).toNat = 0 * size.toNat := by simp
        have hrow := sweepRow_eq hsize (hcolumns (Nat.zero_lt_of_lt hlt')) hy hlt
          (Nat.zero_le _) (show _ < 0 + fuel by omega) hzero regions
        obtain ⟨regions', hregions, hbare⟩ := Option.map_eq_some_iff.mp hrow
        rw [hregions, Option.bind_eq_bind, Option.bind_some, ih hcell (by omega)
          (toNat_step rfl hy hlt' hrows), hbare, hcount, List.range'_succ, List.flatMap_cons,
          ← List.append_assoc, Nat.sub_zero, ← List.range_eq_range']
      · rename_i hge
        have hend : ¬ j < cells height.toNat size.toNat := fun hlt =>
          hge (UInt32.lt_iff_toNat_lt.mpr (hy ▸ (lt_cells_iff hsize).mp hlt))
        have hcount : cells height.toNat size.toNat - j = 0 := by omega
        simp [hcount]

/-- Numbers of regions play no part in how they are put in order, and are given anew. -/
theorem numbered_centerOut_bare (width height : Nat) (regions : List Region) :
    numbered (centerOut width height (regions.map bare)) =
      numbered (centerOut width height regions) := by
  have hsorted : centerOut width height (regions.map bare) =
      (centerOut width height regions).map bare := by
    symm
    apply List.map_mergeSort
    intro a _ b _
    rfl
  rw [hsorted]
  apply List.ext_getElem?
  intro i
  simp only [numbered, List.getElem?_mapIdx, List.getElem?_map, Option.map_map]
  rfl

theorem sweepCover_eq (hrows : StepsFit height.toNat (max size 1).toNat)
    (hcolumns : 0 < height.toNat → StepsFit width.toNat (max size 1).toNat) {fuel : Nat}
    (hfuel : cells height.toNat (max size 1).toNat + cells width.toNat (max size 1).toNat < fuel) :
    sweepCover width height size fuel = some (cover width.toNat height.toNat size.toNat) := by
  have hmax : (max size 1).toNat = max size.toNat 1 := UInt32.toNat_max size 1
  have hsize : 0 < (max size 1).toNat := by omega
  have hzero : (0 : UInt32).toNat = 0 * (max size 1).toNat := by simp
  have hsweep := sweep_eq hsize hrows hcolumns (Nat.zero_le _)
    (Nat.lt_of_lt_of_eq hfuel (Nat.zero_add fuel).symm) hzero []
  obtain ⟨regions, hregions, hbare⟩ := Option.map_eq_some_iff.mp hsweep
  rw [List.map_nil, List.nil_append, Nat.sub_zero, ← List.range_eq_range', ← grid_eq, hmax]
    at hbare
  rw [sweepCover, hregions, Option.map_some, ← numbered_centerOut_bare, hbare]
  rfl

/-- The loops that cut an image into regions end, and leave a partition of the image: regions that
have pixels, are no larger than asked for and lie inside the image, so that every pixel lies in
exactly one of them. There are as many as the rounded-up quotients of the sides say, each numbered
by its place. -/
theorem sweepCover_partition (width height size : UInt32)
    (hrows : StepsFit height.toNat (max size 1).toNat)
    (hcolumns : 0 < height.toNat → StepsFit width.toNat (max size 1).toNat) :
    ∃ (regions : List Region) (steps : Nat),
      regions = cover width.toNat height.toNat size.toNat ∧
      (∀ fuel ≥ steps, sweepCover width height size fuel = some regions) ∧
      (∀ r ∈ regions, (0 < r.width ∧ r.width ≤ max size.toNat 1) ∧
        (0 < r.height ∧ r.height ≤ max size.toNat 1) ∧ r.Inside width.toNat height.toNat) ∧
      (∀ x < width.toNat, ∀ y < height.toNat,
        ∃! n : Nat, ∃ r : Region, regions[n]? = some r ∧ r.Covers x y) ∧
      regions.length =
        (width.toNat ⌈/⌉ max size.toNat 1) * (height.toNat ⌈/⌉ max size.toNat 1) ∧
      ∀ (n : Nat) (r : Region), regions[n]? = some r → r.index = n := by
  refine ⟨_, cells height.toNat (max size 1).toNat + cells width.toNat (max size 1).toNat + 1, rfl,
    ?_, ?_, ?_, ?_, ?_⟩
  · intro fuel hfuel
    exact sweepCover_eq hrows hcolumns hfuel
  · intro r hr
    obtain ⟨hwidth, hheight⟩ := dimensions_of_mem_cover hr
    exact ⟨hwidth, hheight, inside_of_mem_cover hr⟩
  · intro x hx y hy
    exact existsUnique_place size.toNat hx hy
  · rw [length_cover, Nat.ceilDiv_eq_add_pred_div, Nat.ceilDiv_eq_add_pred_div, Nat.mul_comm]
    rfl
  · intro n r hr
    exact index_of_getElem?_cover hr

/-- An image of 100 by 70 pixels in regions of 64: two columns and two rows, the last of each
clipped. -/
theorem sweepCover_partial_fit :
    (StepsFit 70 64 ∧ StepsFit 100 64) ∧ ∃ (regions : List Region) (steps : Nat),
      (∀ fuel ≥ steps, sweepCover 100 70 64 fuel = some regions) ∧ regions.length = 4 ∧
      (∀ r ∈ regions, 0 < r.width ∧ 0 < r.height ∧ r.Inside 100 70) ∧
      ∃! n : Nat, ∃ r : Region, regions[n]? = some r ∧ r.Covers 99 69 := by
  have hrows : StepsFit 70 64 := by
    intro i hi
    omega
  have hcolumns : StepsFit 100 64 := by
    intro i hi
    omega
  refine ⟨⟨hrows, hcolumns⟩, ?_⟩
  obtain ⟨regions, steps, _, hends, hregions, hunique, hlength, _⟩ :=
    sweepCover_partition 100 70 64 hrows fun _ => hcolumns
  refine ⟨regions, steps, hends, hlength.trans ?_, ?_, hunique 99 (by decide) 69 (by decide)⟩
  · simp [Nat.ceilDiv_eq_add_pred_div]
  · intro r hr
    obtain ⟨hwidth, hheight, hinside⟩ := hregions r hr
    exact ⟨hwidth.1, hheight.1, hinside⟩

end TileTracer.Region
