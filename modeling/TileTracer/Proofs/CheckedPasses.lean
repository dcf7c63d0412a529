import TileTracer.Proofs.CheckedTiles
import TileTracer.Proofs.GuardedDrawing

namespace TileTracer

open Words

/-- Beside its size, the places of all pixels of the region are words. -/
structure Region.FitsWords (r : Region) : Prop extends r.SizeFits where
  right : r.x + r.width ≤ 2 ^ 32
  bottom : r.y + r.height ≤ 2 ^ 32

theorem Layout.TilesFit.fitsWords {layout : Layout} {tileSize : Nat} (h : layout.TilesFit tileSize)
    {r : Region} (hr : r ∈ Region.cover layout.width layout.height tileSize) : r.FitsWords where
  toSizeFits := h.sizeFits hr
  right := ((Region.inside_of_mem_cover hr).1.trans_lt h.width).le
  bottom := ((Region.inside_of_mem_cover hr).2.trans_lt h.height).le

namespace Job

def renderAt? (job : Job) (world : World) (camera : Camera) (row : Nat) (tile : Tile)
    (column : Nat) : Option Tile := do
  let x ← onNat? sum? tile.region.x column
  let y ← onNat? sum? tile.region.y row
  let start ← onNat? product? row tile.region.width
  let i ← onNat? sum? start column
  tile.record? i (job.renderPixel world camera tile.passes x y)

/-- Renders one pass of a tile row by row, with words for all places and counters. -/
def renderBound? (job : Job) (world : World) (camera : Camera) (tile : Tile) : Option Tile := do
  let begun := tile.beginPass job.generation
  let rendered ← (List.range begun.region.height).foldlM (fun tile row =>
    (List.range begun.region.width).foldlM (job.renderAt? world camera row) tile) begun
  rendered.endPass? job.samples

def renderTile? (job : Job) (tile : Tile) : Option Tile :=
  match job.context.world, job.context.camera with
  | some world, some camera => job.renderBound? world camera tile
  | _, _ => some tile

/-- A job that is not bound leaves the tile alone, and a bound one makes a pass. -/
theorem renderTile_cases (job : Job) (t : Tile) :
    (job.context.isBound = false ∧ job.renderTile t = t ∧ job.renderTile? t = some t) ∨
      ∃ world camera, job.renderTile t = job.renderBound world camera t ∧
        job.context.isBound = true ∧ job.renderTile? t = job.renderBound? world camera t := by
  obtain ⟨⟨settings, world, camera⟩, generation, width, height⟩ := job
  cases world with
  | none => exact .inl ⟨rfl, rfl, rfl⟩
  | some world =>
      cases camera with
      | none => exact .inl ⟨rfl, rfl, rfl⟩
      | some camera => exact .inr ⟨world, camera, rfl, rfl, rfl⟩

variable (job : Job) (world : World) (camera : Camera) {t : Tile} {r : Region}

theorem renderAt?_eq (hr : r.FitsWords) (ht : t.Fits r) {row column : Nat} (hrow : row < r.height)
    (hcolumn : column < r.width) :
    job.renderAt? world camera row t column =
      some (job.renderInto world camera t (row * r.width + column)) := by
  have hlt : row * r.width + column < r.width * r.height := ArrayWrites.row_index_lt hcolumn hrow
  have hright := hr.right
  have hbottom := hr.bottom
  have hpixels := hr.pixels
  have hmod : (row * r.width + column) % r.width = column := Nat.mul_add_mod_of_lt hcolumn
  rw [renderAt?, ht.region, onNat?_sum?, if_pos (by omega), onNat?_sum?, if_pos (by omega),
    onNat?_product? (by have := hr.height; omega) hr.width, if_pos (by omega)]
  simp only [Option.bind_eq_bind, Option.bind_some]
  rw [onNat?_sum?, if_pos (by omega), Option.bind_some, Tile.record?, ht.sums,
    if_pos (show _ < r.pixelCount from hlt), renderInto, ht.region, hmod,
    Region.row_index_div row hcolumn]

theorem foldl_renderInto_eq_rows (r : Region) (t : Tile) :
    (List.range r.pixelCount).foldl (job.renderInto world camera) t =
      (List.range r.height).foldl (fun t row => (List.range r.width).foldl
        (fun t column => job.renderInto world camera t (row * r.width + column)) t) t := by
  rw [Region.pixelCount, Canvas.range_mul, List.foldl_flatMap]
  simp only [List.foldl_map]

theorem renderRow?_eq (hr : r.FitsWords) (ht : t.Fits r) {row : Nat} (hrow : row < r.height) :
    (List.range r.width).foldlM (job.renderAt? world camera row) t =
        some ((List.range r.width).foldl
          (fun t column => job.renderInto world camera t (row * r.width + column)) t) ∧
      ((List.range r.width).foldl
        (fun t column => job.renderInto world camera t (row * r.width + column)) t).Fits r := by
  apply foldlM_guarded (P := fun t : Tile => t.Fits r)
  · intro t ht column hcolumn
    exact ⟨job.renderAt?_eq world camera hr ht hrow (List.mem_range.mp hcolumn), ht.record _ _⟩
  · exact ht

/-- Up to the end of the pass no number leaves its word. -/
theorem exists_rendered (hr : r.FitsWords) (ht : t.Fits r) :
    ∃ rendered : Tile, job.renderBound world camera t = rendered.endPass job.samples ∧
      job.renderBound? world camera t = rendered.endPass? job.samples := by
  have hbegun := ht.beginPass job.generation
  have hrows := foldlM_guarded (P := fun t : Tile => t.Fits r) (l := List.range r.height)
    (fun t ht row hrow => job.renderRow?_eq world camera hr ht (List.mem_range.mp hrow)) hbegun
  refine ⟨_, rfl, ?_⟩
  rw [hbegun.region, foldl_renderInto_eq_rows, renderBound?, hbegun.region, hrows.1]
  rfl

theorem renderTile?_cases (hr : r.FitsWords) (ht : t.Fits r) (hcounters : t.CountersFit) :
    (job.renderTile t).CountersFit ∧ job.renderTile? t = some (job.renderTile t) ∨
      ¬(job.renderTile t).CountersFit ∧ job.renderTile? t = none := by
  obtain ⟨-, hkept, hkept?⟩ | ⟨world, camera, hpass, -, hpass?⟩ := job.renderTile_cases t
  · rw [hkept, hkept?]
    exact .inl ⟨hcounters, rfl⟩
  · obtain ⟨rendered, hended, hended?⟩ := job.exists_rendered world camera hr ht
    rw [hpass, hpass?, hended, hended?]
    exact rendered.endPass?_cases job.samples

theorem renderTile?_eq (hr : r.FitsWords) (ht : t.Fits r)
    (hcounters : (job.renderTile t).CountersFit) :
    job.renderTile? t = some (job.renderTile t) := by
  obtain ⟨-, hkept, hkept?⟩ | ⟨world, camera, hpass, -, hpass?⟩ := job.renderTile_cases t
  · rw [hkept?, hkept]
  · obtain ⟨rendered, hended, hended?⟩ := job.exists_rendered world camera hr ht
    rw [hpass, hended] at hcounters
    rw [hpass, hpass?, hended, hended?, hcounters.endPass?_eq_some]

end Job

end TileTracer
