import Mathlib.Tactic.ByContra
import TileTracer.Frame.Region

namespace TileTracer.Region

def Covers (r : Region) (x y : Nat) : Prop :=
  r.x ≤ x ∧ x < r.x + r.width ∧ r.y ≤ y ∧ y < r.y + r.height

def Inside (r : Region) (width height : Nat) : Prop :=
  r.x + r.width ≤ width ∧ r.y + r.height ≤ height

theorem cut_start_lt {length size i : Nat} (hi : i < cells length size) :
    (cut length size i).1 < length := by
  have hsize : 0 < size := by
    by_contra h
    have hzero : size = 0 := by omega
    simp [cells, hzero] at hi
  have hquot : (i + 1) * size ≤ length + size - 1 :=
    (Nat.le_div_iff_mul_le hsize).mp hi
  rw [Nat.succ_mul] at hquot
  change i * size < length
  omega

theorem cut_end_le {length size i : Nat} (hi : i < cells length size) :
    (cut length size i).1 + (cut length size i).2 ≤ length := by
  have hstart : i * size < length := cut_start_lt hi
  change i * size + min size (length - i * size) ≤ length
  omega

theorem exists_cut {length size x : Nat} (hsize : 0 < size) (hx : x < length) :
    ∃ i < cells length size, (cut length size i).1 ≤ x ∧
      x < (cut length size i).1 + (cut length size i).2 := by
  have hle : x / size * size ≤ x := Nat.div_mul_le_self x size
  have hlt : x < x / size * size + size := by
    have := Nat.lt_div_mul_add hsize (a := x)
    omega
  refine ⟨x / size, ?_, hle, ?_⟩
  · apply (Nat.le_div_iff_mul_le hsize).mpr
    rw [Nat.succ_mul]
    omega
  · change x < x / size * size + min size (length - x / size * size)
    omega

theorem mem_grid_iff {width height size : Nat} {r : Region} :
    r ∈ grid width height size ↔
      ∃ j < cells height size, ∃ i < cells width size,
        r = { x := (cut width size i).1, y := (cut height size j).1,
              width := (cut width size i).2, height := (cut height size j).2, index := 0 } := by
  simp only [grid, List.mem_flatMap, List.mem_map, List.mem_range]
  constructor
  · rintro ⟨j, hj, i, hi, rfl⟩
    exact ⟨j, hj, i, hi, rfl⟩
  · rintro ⟨j, hj, i, hi, rfl⟩
    exact ⟨j, hj, i, hi, rfl⟩

theorem length_grid (width height size : Nat) :
    (grid width height size).length = cells height size * cells width size := by
  simp only [grid, List.length_flatMap, List.length_map, List.length_range, List.map_const',
    List.sum_replicate_nat]

theorem centerOut_perm (width height : Nat) (regions : List Region) :
    (centerOut width height regions).Perm regions :=
  List.mergeSort_perm regions _

theorem length_cover (width height size : Nat) :
    (cover width height size).length =
      cells height (max size 1) * cells width (max size 1) := by
  rw [cover, numbered, List.length_mapIdx, (centerOut_perm width height _).length_eq, length_grid]

/-- Up to their numbers, the regions of an image are the cells of the grid. -/
theorem mem_cover_iff {width height size : Nat} {r : Region} :
    r ∈ cover width height size ↔
      ∃ i, (centerOut width height (grid width height (max size 1)))[i]?.map
        (fun cell : Region => { cell with index := i }) = some r := by
  simp only [cover, numbered, List.mem_iff_getElem?, List.getElem?_mapIdx]

theorem exists_cell_of_mem_cover {width height size : Nat} {r : Region}
    (hr : r ∈ cover width height size) :
    ∃ cell ∈ grid width height (max size 1), { cell with index := r.index } = r := by
  obtain ⟨i, hi⟩ := mem_cover_iff.mp hr
  obtain ⟨cell, hcell, rfl⟩ := Option.map_eq_some_iff.mp hi
  exact ⟨cell, (centerOut_perm width height _).mem_iff.mp (List.mem_of_getElem? hcell), rfl⟩

theorem exists_mem_cover_of_cell {width height size : Nat} {cell : Region}
    (hcell : cell ∈ grid width height (max size 1)) :
    ∃ i, { cell with index := i } ∈ cover width height size := by
  obtain ⟨i, hi⟩ := List.mem_iff_getElem?.mp
    ((centerOut_perm width height _).mem_iff.mpr hcell)
  exact ⟨i, mem_cover_iff.mpr ⟨i, by rw [hi]; rfl⟩⟩

theorem inside_of_mem_cover {width height size : Nat} {r : Region}
    (hr : r ∈ cover width height size) : r.Inside width height := by
  obtain ⟨cell, hcell, heq⟩ := exists_cell_of_mem_cover hr
  obtain ⟨j, hj, i, hi, rfl⟩ := mem_grid_iff.mp hcell
  rw [← heq]
  exact ⟨cut_end_le hi, cut_end_le hj⟩

/-- Every pixel of the image lies in a region. -/
theorem exists_mem_cover_covers {width height x y : Nat} (size : Nat) (hx : x < width)
    (hy : y < height) : ∃ r ∈ cover width height size, r.Covers x y := by
  have hsize : 0 < max size 1 := by omega
  obtain ⟨i, hi, hxlow, hxhigh⟩ := exists_cut hsize hx
  obtain ⟨j, hj, hylow, hyhigh⟩ := exists_cut hsize hy
  obtain ⟨index, hmem⟩ := exists_mem_cover_of_cell (mem_grid_iff.mpr ⟨j, hj, i, hi, rfl⟩)
  exact ⟨_, hmem, hxlow, hxhigh, hylow, hyhigh⟩

end TileTracer.Region
