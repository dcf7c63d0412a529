import Mathlib.Data.List.Nodup
import TileTracer.Proofs.RegionCover

namespace TileTracer.Region

theorem lt_cells_iff {length size i : Nat} (hsize : 0 < size) :
    i < cells length size ↔ i * size < length := by
  constructor
  · exact fun hi => cut_start_lt hi
  · intro hstart
    apply (Nat.le_div_iff_mul_le hsize).mpr
    rw [Nat.succ_mul]
    omega

theorem cut_length_pos {length size i : Nat} (hsize : 0 < size) (hi : i < cells length size) :
    0 < (cut length size i).2 := by
  have hstart : i * size < length := cut_start_lt hi
  change 0 < min size (length - i * size)
  omega

theorem eq_div_of_cut {length size i x : Nat} (hlow : (cut length size i).1 ≤ x)
    (hhigh : x < (cut length size i).1 + (cut length size i).2) : i = x / size := by
  change i * size ≤ x at hlow
  change x < i * size + min size (length - i * size) at hhigh
  symm
  apply Nat.div_eq_of_lt_le hlow
  rw [Nat.succ_mul]
  omega

def cell (width height size i j : Nat) : Region :=
  { x := (cut width size i).1, y := (cut height size j).1,
    width := (cut width size i).2, height := (cut height size j).2, index := 0 }

theorem grid_eq (width height size : Nat) :
    grid width height size = (List.range (cells height size)).flatMap fun j =>
      (List.range (cells width size)).map fun i => cell width height size i j := rfl

theorem cell_inj {width height size i j i' j' : Nat} (hsize : 0 < size)
    (heq : cell width height size i j = cell width height size i' j') : i = i' ∧ j = j' :=
  ⟨Nat.eq_of_mul_eq_mul_right hsize (congrArg Region.x heq),
    Nat.eq_of_mul_eq_mul_right hsize (congrArg Region.y heq)⟩

theorem grid_nodup {size : Nat} (width height : Nat) (hsize : 0 < size) :
    (grid width height size).Nodup := by
  rw [grid_eq, List.nodup_flatMap]
  constructor
  · intro j _
    exact List.nodup_range.map fun i i' heq => (cell_inj hsize heq).1
  · refine List.nodup_range.imp fun {j j'} hne => ?_
    intro r hr hr'
    obtain ⟨i, _, rfl⟩ := List.mem_map.mp hr
    obtain ⟨i', _, heq⟩ := List.mem_map.mp hr'
    exact hne (cell_inj hsize heq).2.symm

theorem eq_cell_of_covers {width height size x y : Nat} {r : Region}
    (hr : r ∈ grid width height size) (hcovers : r.Covers x y) :
    r = cell width height size (x / size) (y / size) := by
  obtain ⟨j, _, i, _, rfl⟩ := mem_grid_iff.mp hr
  obtain ⟨hxlow, hxhigh, hylow, hyhigh⟩ := hcovers
  rw [← eq_div_of_cut hxlow hxhigh, ← eq_div_of_cut hylow hyhigh]
  rfl

theorem getElem?_cover_eq_some {width height size n : Nat} {r : Region}
    (hr : (cover width height size)[n]? = some r) :
    ∃ c, (centerOut width height (grid width height (max size 1)))[n]? = some c ∧
      r = { c with index := n } := by
  rw [cover, numbered, List.getElem?_mapIdx] at hr
  obtain ⟨c, hc, rfl⟩ := Option.map_eq_some_iff.mp hr
  exact ⟨c, hc, rfl⟩

theorem index_of_getElem?_cover {width height size n : Nat} {r : Region}
    (hr : (cover width height size)[n]? = some r) : r.index = n := by
  obtain ⟨c, _, rfl⟩ := getElem?_cover_eq_some hr
  rfl

/-- Two places of the render order never hold regions with a pixel in common. -/
theorem place_unique {width height size n n' x y : Nat} {r r' : Region}
    (hr : (cover width height size)[n]? = some r) (hcovers : r.Covers x y)
    (hr' : (cover width height size)[n']? = some r') (hcovers' : r'.Covers x y) : n = n' := by
  have hsize : 0 < max size 1 := by omega
  have hperm := centerOut_perm width height (grid width height (max size 1))
  obtain ⟨c, hc, rfl⟩ := getElem?_cover_eq_some hr
  obtain ⟨c', hc', rfl⟩ := getElem?_cover_eq_some hr'
  have hcell := eq_cell_of_covers (hperm.mem_iff.mp (List.mem_of_getElem? hc)) hcovers
  have hcell' := eq_cell_of_covers (hperm.mem_iff.mp (List.mem_of_getElem? hc')) hcovers'
  have hnodup := hperm.nodup_iff.mpr (grid_nodup width height hsize)
  have hlt : n < (centerOut width height (grid width height (max size 1))).length :=
    (List.getElem?_eq_some_iff.mp hc).1
  exact (List.getElem?_inj hlt hnodup).mp (by rw [hc, hc', hcell, hcell'])

theorem dimensions_of_mem_cover {width height size : Nat} {r : Region}
    (hr : r ∈ cover width height size) :
    (0 < r.width ∧ r.width ≤ max size 1) ∧ 0 < r.height ∧ r.height ≤ max size 1 := by
  have hsize : 0 < max size 1 := by omega
  obtain ⟨c, hc, heq⟩ := exists_cell_of_mem_cover hr
  obtain ⟨j, hj, i, hi, rfl⟩ := mem_grid_iff.mp hc
  rw [← heq]
  exact ⟨⟨cut_length_pos hsize hi, Nat.min_le_left _ _⟩, cut_length_pos hsize hj,
    Nat.min_le_left _ _⟩

/-- Every pixel of the image lies in the region at exactly one place of the render order. -/
theorem existsUnique_place {width height x y : Nat} (size : Nat) (hx : x < width)
    (hy : y < height) :
    ∃! n : Nat, ∃ r : Region, (cover width height size)[n]? = some r ∧ r.Covers x y := by
  obtain ⟨r, hr, hcovers⟩ := exists_mem_cover_covers size hx hy
  obtain ⟨n, hn⟩ := List.mem_iff_getElem?.mp hr
  refine ⟨n, ⟨r, hn, hcovers⟩, ?_⟩
  rintro n' ⟨r', hn', hcovers'⟩
  exact place_unique hn' hcovers' hn hcovers

end TileTracer.Region
