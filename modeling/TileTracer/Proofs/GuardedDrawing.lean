import TileTracer.Proofs.GuardedHistory

namespace TileTracer

/-- Copies an element of one array over an element of another; `none` if there is no such element in
either. -/
def copyElement? {β γ : Type} (f : γ → β) (buffer : Array γ) (source : Nat) (old : Array β)
    (target : Nat) : Option (Array β) :=
  if h : source < buffer.size ∧ target < old.size then
    some (old.set target (f buffer[source]) h.2)
  else none

def copyToChannel? {β : Type} (buffer : Array β) (source : Nat) (channel : Option (Array β))
    (target : Nat) : Option (Option (Array β)) :=
  match channel with
  | none => some none
  | some old => (copyElement? id buffer source old target).map some

theorem copyElement?_eq {β γ : Type} (f : γ → β) {buffer : Array γ} {source target : Nat}
    {old : Array β} (hsource : source < buffer.size) (htarget : target < old.size) (absent : γ) :
    copyElement? f buffer source old target =
      some (old.setIfInBounds target (f (buffer.getD source absent))) := by
  rw [copyElement?, dif_pos ⟨hsource, htarget⟩, Array.setIfInBounds, dif_pos htarget,
    Array.getD_eq_getD_getElem?, Array.getElem?_eq_getElem hsource, Option.getD_some]

theorem copyToChannel?_eq {β : Type} {buffer : Array β} {source target n : Nat}
    {channel : Option (Array β)} {present : Bool} (hsource : source < buffer.size)
    (hchannel : channel.map Array.size = if present then some n else none) (htarget : target < n)
    (absent : β) :
    copyToChannel? buffer source channel target =
      some (channel.map (·.setIfInBounds target (buffer.getD source absent))) := by
  cases channel with
  | none => rfl
  | some old =>
      have hold : old.size = n := (Canvas.size_of_channel hchannel).2 old rfl
      rw [copyToChannel?, copyElement?_eq id hsource (hold ▸ htarget) absent]
      rfl

namespace Canvas

/-- Copies pixel `source` of a tile to pixel `target` of every channel; `none` if there is no such
pixel in the tile or in a channel. -/
def copyPixel? (canvas : Canvas) (format : PixelFormat) (tile : Tile) (source target : Nat) :
    Option Canvas := do
  let color ← match canvas.color with
    | .bytes pixels =>
      (copyElement? format.encode tile.color source pixels target).map ColorStore.bytes
    | .floats pixels => (copyElement? id tile.color source pixels target).map ColorStore.floats
  let depth ← copyToChannel? tile.depth source canvas.depth target
  let albedo ← copyToChannel? tile.albedo source canvas.albedo target
  let normal ← copyToChannel? tile.normal source canvas.normal target
  return { color, depth, albedo, normal }

def copyAt (layout : Layout) (tile : Tile) (row : Nat) (canvas : Canvas) (column : Nat) : Canvas :=
  canvas.copyPixel layout.format tile (row * tile.region.width + column)
    ((tile.region.y + row) * layout.width + (tile.region.x + column))

def copyAt? (layout : Layout) (tile : Tile) (row : Nat) (canvas : Canvas) (column : Nat) :
    Option Canvas :=
  canvas.copyPixel? layout.format tile (row * tile.region.width + column)
    ((tile.region.y + row) * layout.width + (tile.region.x + column))

def drawTile? (canvas : Canvas) (layout : Layout) (tile : Tile) : Option Canvas :=
  (List.range tile.region.height).foldlM (fun canvas row =>
    (List.range tile.region.width).foldlM (copyAt? layout tile row) canvas) canvas

theorem copyPixel_fits {canvas : Canvas} {layout : Layout} (hfits : canvas.Fits layout)
    (tile : Tile) (source target : Nat) :
    (canvas.copyPixel layout.format tile source target).Fits layout := by
  rw [copyPixel_eq_write]
  exact write_fits hfits _ _ _ _

theorem copyPixel?_eq {canvas : Canvas} {layout : Layout} {tile : Tile} {source target : Nat}
    (hfits : canvas.Fits layout) (htile : tile.Fits tile.region)
    (hsource : source < tile.region.pixelCount) (htarget : target < layout.pixelCount) :
    canvas.copyPixel? layout.format tile source target =
      some (canvas.copyPixel layout.format tile source target) := by
  have hsize := hfits.color.size_eq
  rw [copyPixel?, copyToChannel?_eq (htile.depth ▸ hsource) hfits.depth htarget 0.0,
    copyToChannel?_eq (htile.albedo ▸ hsource) hfits.albedo htarget .zero,
    copyToChannel?_eq (htile.normal ▸ hsource) hfits.normal htarget .zero, copyPixel]
  cases hcolor : canvas.color with
  | bytes pixels =>
      rw [hcolor] at hsize
      have hpixels : target < pixels.size := Nat.lt_of_lt_of_eq htarget hsize.symm
      dsimp only
      rw [copyElement?_eq _ (htile.color ▸ hsource) hpixels .zero]
      rfl
  | floats pixels =>
      rw [hcolor] at hsize
      have hpixels : target < pixels.size := Nat.lt_of_lt_of_eq htarget hsize.symm
      dsimp only
      rw [copyElement?_eq _ (htile.color ▸ hsource) hpixels .zero]
      rfl

theorem range_mul (rows columns : Nat) :
    List.range (columns * rows) = (List.range rows).flatMap fun row =>
      (List.range columns).map fun column => row * columns + column := by
  induction rows with
  | zero => rfl
  | succ rows ih =>
      rw [Nat.mul_succ, List.range_add, ih, List.range_succ, List.flatMap_append,
        List.flatMap_singleton, Nat.mul_comm columns rows]

/-- The pixels of a tile are drawn row by row, and column by column within each row. -/
theorem drawTile_eq_rows (canvas : Canvas) (layout : Layout) (tile : Tile) :
    canvas.drawTile layout tile =
      (List.range tile.region.height).foldl (fun canvas row =>
        (List.range tile.region.width).foldl (copyAt layout tile row) canvas) canvas := by
  rw [drawTile, Region.pixelCount, range_mul, List.foldl_flatMap]
  apply List.foldl_ext
  intro canvas row _
  rw [List.foldl_map]
  apply List.foldl_ext
  intro canvas column hcolumn
  have hlt := List.mem_range.mp hcolumn
  have hmod : (row * tile.region.width + column) % tile.region.width = column :=
    Nat.mul_add_mod_of_lt hlt
  rw [imageIndex, hmod, Region.row_index_div row hlt, copyAt]

theorem drawTile?_eq {canvas : Canvas} {layout : Layout} {tile : Tile}
    (hfits : canvas.Fits layout) (htile : tile.Fits tile.region)
    (hinside : tile.region.Inside layout.width layout.height) :
    canvas.drawTile? layout tile = some (canvas.drawTile layout tile) := by
  have hpixel : ∀ row < tile.region.height, ∀ canvas, Canvas.Fits canvas layout →
      ∀ column ∈ List.range tile.region.width,
        copyAt? layout tile row canvas column = some (copyAt layout tile row canvas column) ∧
          (copyAt layout tile row canvas column).Fits layout := by
    intro row hrow canvas hcanvas column hcolumn
    have hlt := List.mem_range.mp hcolumn
    obtain ⟨hright, hbottom⟩ := hinside
    exact ⟨copyPixel?_eq hcanvas htile (ArrayWrites.row_index_lt hlt hrow)
      (ArrayWrites.row_index_lt (by omega) (by omega)), copyPixel_fits hcanvas _ _ _⟩
  have hrow : ∀ canvas, Canvas.Fits canvas layout → ∀ row ∈ List.range tile.region.height,
      (List.range tile.region.width).foldlM (copyAt? layout tile row) canvas =
          some ((List.range tile.region.width).foldl (copyAt layout tile row) canvas) ∧
        ((List.range tile.region.width).foldl (copyAt layout tile row) canvas).Fits layout :=
    fun canvas hcanvas row hrow => foldlM_guarded (hpixel row (List.mem_range.mp hrow)) hcanvas
  rw [drawTile_eq_rows]
  exact (foldlM_guarded hrow hfits).1

end Canvas

namespace FrameBuffer

def drawTiles? (fb : FrameBuffer) : Option FrameBuffer := do
  let canvas ← fb.tiles.toList.foldlM (fun canvas tile => canvas.drawTile? fb.layout tile) fb.canvas
  return { fb with canvas }

theorem WellFormed.drawTiles?_eq {fb : FrameBuffer} (h : fb.WellFormed) :
    fb.drawTiles? = some fb.drawTiles := by
  have htile : ∀ canvas, Canvas.Fits canvas fb.layout → ∀ tile ∈ fb.tiles.toList,
      canvas.drawTile? fb.layout tile = some (canvas.drawTile fb.layout tile) ∧
        (canvas.drawTile fb.layout tile).Fits fb.layout := by
    intro canvas hcanvas tile htile
    have hmem := Array.mem_toList_iff.mp htile
    exact ⟨Canvas.drawTile?_eq hcanvas (h.tiles.fits_of_mem hmem)
      (Region.inside_of_mem_cover (h.tiles.region_mem hmem)), Canvas.drawTile_fits hcanvas tile⟩
  rw [drawTiles?, (foldlM_guarded htile h.canvas).1, FrameBuffer.drawTiles, ← Array.foldl_toList]
  rfl

end FrameBuffer

end TileTracer
