import TileTracer.Proofs.CheckedTiles
import TileTracer.Proofs.GuardedDrawing
import TileTracer.Proofs.RegionPartition

namespace TileTracer

namespace Region

instance (r : Region) (x y : Nat) : Decidable (r.Covers x y) :=
  inferInstanceAs (Decidable (_ ∧ _ ∧ _ ∧ _))

def localIndex (r : Region) (x y : Nat) : Nat := (y - r.y) * r.width + (x - r.x)

theorem localIndex_lt {r : Region} {x y : Nat} (hcovers : r.Covers x y) :
    r.localIndex x y < r.pixelCount := by
  obtain ⟨hxlow, hxhigh, hylow, hyhigh⟩ := hcovers
  exact ArrayWrites.row_index_lt (by omega) (by omega)

theorem covers_of_lt {r : Region} {i : Nat} (hi : i < r.pixelCount) :
    r.Covers (r.x + i % r.width) (r.y + i / r.width) := by
  have hwidth : 0 < r.width := Nat.pos_of_mul_pos_right (Nat.zero_lt_of_lt hi)
  have hcolumn := Nat.mod_lt i hwidth
  have hrow : i / r.width < r.height := Nat.div_lt_of_lt_mul hi
  exact ⟨Nat.le_add_right _ _, Nat.add_lt_add_left hcolumn _, Nat.le_add_right _ _,
    Nat.add_lt_add_left hrow _⟩

theorem localIndex_place (r : Region) (i : Nat) :
    r.localIndex (r.x + i % r.width) (r.y + i / r.width) = i := by
  rw [localIndex, Nat.add_sub_cancel_left, Nat.add_sub_cancel_left, Nat.mul_comm,
    Nat.div_add_mod]

theorem getElem?_gather_image {β : Type} {width height x y : Nat} (f : Nat → Nat → β)
    (hx : x < width) (hy : y < height) :
    ((image width height).gather f)[y * width + x]? = some (f x y) := by
  have hmod : (y * width + x) % width = x := Nat.mul_add_mod_of_lt hx
  have hlt : y * width + x < (image width height).pixelCount :=
      ArrayWrites.row_index_lt hx hy
  rw [getElem?_gather, if_pos hlt]
  simp only [image, hmod, row_index_div y hx, Nat.zero_add]

end Region

namespace Tile

def Apart (tiles : List Tile) : Prop :=
  ∀ t ∈ tiles, ∀ u ∈ tiles, ∀ x y, t.region.Covers x y → u.region.Covers x y → t = u

/-- The value for every place of an image that a buffer of the tile over it holds. -/
def mosaic {β : Type} (tiles : List Tile) (buffer : Tile → Array β) (absent : β) (x y : Nat) : β :=
  match tiles.find? fun t => t.region.Covers x y with
  | some t => (buffer t).getD (t.region.localIndex x y) absent
  | none => absent

variable {tiles : List Tile} {t : Tile} {x y : Nat}

theorem mosaic_of_covers {β : Type} (hapart : Apart tiles) (ht : t ∈ tiles)
    (hcovers : t.region.Covers x y) (buffer : Tile → Array β) (absent : β) :
    mosaic tiles buffer absent x y = (buffer t).getD (t.region.localIndex x y) absent := by
  unfold mosaic
  split
  · rename_i u hu
    have hcoversu : u.region.Covers x y := by simpa using List.find?_some hu
    rw [hapart t ht u (List.mem_of_find?_eq_some hu) x y hcovers hcoversu]
  · rename_i hnone
    exact absurd hcovers (by simpa using List.find?_eq_none.mp hnone t ht)

theorem eq_gather_mosaic {β : Type} (hapart : Apart tiles) (ht : t ∈ tiles)
    (buffer : Tile → Array β) (absent : β) (hsize : (buffer t).size = t.region.pixelCount) :
    buffer t = t.region.gather (mosaic tiles buffer absent) := by
  apply Array.ext_getElem?
  intro i
  rw [Region.getElem?_gather]
  split
  · rename_i hi
    have hi' : i < (buffer t).size := hsize ▸ hi
    rw [mosaic_of_covers hapart ht (Region.covers_of_lt hi), Region.localIndex_place,
      Array.getD_eq_getD_getElem?, Array.getElem?_eq_getElem hi', Option.getD_some]
  · rename_i hi
    exact Array.getElem?_eq_none (hsize ▸ Nat.le_of_not_lt hi)

/-- What the tiles show together. -/
def exposure (tiles : List Tile) : Exposure where
  color := mosaic tiles Tile.color .zero
  depth := mosaic tiles Tile.depth Scalar.infinity
  albedo := mosaic tiles Tile.albedo .zero
  normal := mosaic tiles Tile.normal .zero

theorem shows_exposure (hapart : Apart tiles) (ht : t ∈ tiles) (hfits : t.Fits t.region) :
    t.Shows (exposure tiles) where
  color := eq_gather_mosaic hapart ht _ _ hfits.color
  depth := eq_gather_mosaic hapart ht _ _ hfits.depth
  albedo := eq_gather_mosaic hapart ht _ _ hfits.albedo
  normal := eq_gather_mosaic hapart ht _ _ hfits.normal

theorem Cover.place_unique {tiles : Array Tile} {width height size i j : Nat} {t u : Tile}
    (h : Cover tiles (Region.cover width height size)) (ht : tiles[i]? = some t)
    (hcovers : t.region.Covers x y) (hu : tiles[j]? = some u) (hcovers' : u.region.Covers x y) :
    i = j := by
  have hplace {n : Nat} {v : Tile} (hv : tiles[n]? = some v) :
      (Region.cover width height size)[n]? = some v.region := by
    rw [← h.map_region, List.getElem?_map, Array.getElem?_toList, hv]
    rfl
  exact Region.place_unique (hplace ht) hcovers (hplace hu) hcovers'

theorem Cover.apart {tiles : Array Tile} {width height size : Nat}
    (h : Cover tiles (Region.cover width height size)) : Apart tiles.toList := by
  intro t ht u hu x y hcovers hcovers'
  obtain ⟨i, hi⟩ := Array.mem_iff_getElem?.mp (Array.mem_toList_iff.mp ht)
  obtain ⟨j, hj⟩ := Array.mem_iff_getElem?.mp (Array.mem_toList_iff.mp hu)
  obtain rfl := h.place_unique hi hcovers hj hcovers'
  exact Option.some.inj (hi.symm.trans hj)

theorem Cover.exists_covers {tiles : Array Tile} {width height size : Nat}
    (h : Cover tiles (Region.cover width height size)) (hx : x < width) (hy : y < height) :
    ∃ (i : Nat) (t : Tile), tiles[i]? = some t ∧ t.region.Covers x y := by
  obtain ⟨r, hr, hcovers⟩ := Region.exists_mem_cover_covers size hx hy
  rw [← h.map_region] at hr
  obtain ⟨t, ht, rfl⟩ := List.mem_map.mp hr
  obtain ⟨i, hi⟩ := Array.mem_iff_getElem?.mp (Array.mem_toList_iff.mp ht)
  exact ⟨i, t, hi, hcovers⟩

end Tile

/-- The store holds a color at a pixel, as it is or encoded for the format if pixels are bytes. -/
def ColorStore.HoldsAt (store : ColorStore) (format : PixelFormat) (target : Nat)
    (c : Vec4 Float32) : Prop :=
  match store with
  | bytes pixels => pixels[target]? = some (format.encode c)
  | floats pixels => pixels[target]? = some c

namespace Canvas

/-- Every channel that is there holds at pixel `target` what a tile holds at `source`. -/
structure HoldsAt (canvas : Canvas) (format : PixelFormat) (target : Nat) (t : Tile)
    (source : Nat) : Prop where
  color : ∃ c, t.color[source]? = some c ∧ canvas.color.HoldsAt format target c
  depth : ∃ d, t.depth[source]? = some d ∧ ∀ a, canvas.depth = some a → a[target]? = some d
  albedo : ∃ c, t.albedo[source]? = some c ∧ ∀ a, canvas.albedo = some a → a[target]? = some c
  normal : ∃ v, t.normal[source]? = some v ∧ ∀ a, canvas.normal = some a → a[target]? = some v

theorem foldl_drawTile_eq_exposure {canvas : Canvas} {layout : Layout} {tiles order : List Tile}
    {size : Nat} (hfits : canvas.Fits layout)
    (hcover : Tile.Cover tiles.toArray (Region.cover layout.width layout.height size))
    (horder : order.Perm tiles) :
    order.foldl (fun canvas tile => canvas.drawTile layout tile) canvas =
      ofExposure layout (Tile.exposure tiles) := by
  have hmem {t : Tile} (ht : t ∈ order) : t ∈ tiles.toArray :=
    List.mem_toArray.mpr (horder.mem_iff.mp ht)
  apply foldl_drawTile_eq_ofExposure hfits
  · intro t ht
    exact Tile.shows_exposure hcover.apart (horder.mem_iff.mp ht) (hcover.fits_of_mem (hmem ht))
  · intro t ht
    exact Region.inside_of_mem_cover (hcover.region_mem (hmem ht))
  · intro x hx y hy
    obtain ⟨i, t, ht, hcovers⟩ := hcover.exists_covers hx hy
    exact ⟨t, horder.mem_iff.mpr (List.mem_toArray.mp (Array.mem_of_getElem? ht)), hcovers⟩

theorem ofExposure_holdsAt (layout : Layout) {tiles : List Tile} {t : Tile} {x y : Nat}
    (hx : x < layout.width) (hy : y < layout.height) (hapart : Tile.Apart tiles) (ht : t ∈ tiles)
    (hfits : t.Fits t.region) (hcovers : t.region.Covers x y) :
    (ofExposure layout (Tile.exposure tiles)).HoldsAt layout.format (y * layout.width + x) t
      (t.region.localIndex x y) := by
  have hlt := Region.localIndex_lt hcovers
  have hbuffer {β : Type} (buffer : Tile → Array β) (absent : β)
      (hsize : (buffer t).size = t.region.pixelCount) :
      (buffer t)[t.region.localIndex x y]? =
        some (Tile.mosaic tiles buffer absent x y) := by
    rw [Tile.mosaic_of_covers hapart ht hcovers, Array.getD_eq_getD_getElem?,
      Array.getElem?_eq_getElem (hsize ▸ hlt), Option.getD_some]
  have hchannel {β : Type} (present : Bool) (f : Nat → Nat → β) (a : Array β)
      (ha : (if present then some ((Region.image layout.width layout.height).gather f) else none) =
        some a) : a[y * layout.width + x]? = some (f x y) := by
    cases present with
    | false => cases ha
    | true => rw [← Option.some.inj ha, Region.getElem?_gather_image f hx hy]
  refine ⟨⟨_, hbuffer _ .zero hfits.color, ?_⟩,
    ⟨_, hbuffer _ Scalar.infinity hfits.depth, hchannel layout.channels.depth _⟩,
    ⟨_, hbuffer _ .zero hfits.albedo, hchannel layout.channels.albedo _⟩,
    ⟨_, hbuffer _ .zero hfits.normal, hchannel layout.channels.normal _⟩⟩
  unfold ofExposure ColorStore.ofExposure ColorStore.HoldsAt
  cases layout.format <;> exact Region.getElem?_gather_image _ hx hy

end Canvas

namespace FrameBuffer

/-- If words are enough to make the tiles of a frame buffer, drawing these, whatever their buffers
hold, changes nothing but the channels, never leaves the bounds of an array, and brings each pixel
of the image from the one tile over it. The order of the tiles does not matter. -/
theorem drawTiles_assembles {fb : FrameBuffer} (hreachable : fb.Reachable)
    (hfits : fb.layout.TilesFit fb.tileSize) {tiles : Array Tile}
    (hcover : Tile.Cover tiles (fb.tiles.toList.map Tile.region)) :
    ∃ made drawn, coverTiles? fb.layout fb.tileSize = some made ∧
      Tile.Cover made (fb.tiles.toList.map Tile.region) ∧
      drawn = drawTiles { fb with tiles } ∧ drawTiles? { fb with tiles } = some drawn ∧
      drawn = { fb with tiles, canvas := drawn.canvas } ∧
      drawn.canvas.channels = fb.canvas.channels ∧
      (∀ x < fb.layout.width, ∀ y < fb.layout.height, ∃ (i : Nat) (t : Tile),
        tiles[i]? = some t ∧ t.region.Covers x y ∧
        (∀ (j : Nat) (u : Tile), tiles[j]? = some u → u.region.Covers x y → j = i) ∧
        drawn.canvas.HoldsAt fb.layout.format (y * fb.layout.width + x) t
          ((y - t.region.y) * t.region.width + (x - t.region.x))) ∧
      ∀ order : List Tile, order.Perm tiles.toList →
        order.foldl (fun canvas tile => canvas.drawTile fb.layout tile) fb.canvas =
          drawn.canvas := by
  have h := hreachable.wellFormed
  obtain ⟨made, hmade, hmadeCover⟩ := hfits.exists_cover
  rw [h.tiles.map_region] at hcover ⊢
  have hfilled : WellFormed { fb with tiles } := { h with tiles := hcover }
  have hdrawn {order : List Tile} (horder : order.Perm tiles.toList) :=
    Canvas.foldl_drawTile_eq_exposure h.canvas hcover horder
  have hcanvas : (drawTiles { fb with tiles }).canvas =
      .ofExposure fb.layout (Tile.exposure tiles.toList) := by
    rw [drawTiles, ← Array.foldl_toList]
    exact hdrawn (List.Perm.refl _)
  refine ⟨made, _, hmade, hmadeCover, rfl, hfilled.drawTiles?_eq, rfl, ?_, ?_, ?_⟩
  · rw [hfilled.drawTiles.canvas.channels_eq, h.canvas.channels_eq]
    rfl
  · intro x hx y hy
    obtain ⟨i, t, ht, hcovers⟩ := hcover.exists_covers hx hy
    have hmem := Array.mem_of_getElem? ht
    refine ⟨i, t, ht, hcovers, ?_, ?_⟩
    · intro j u hu hcovers'
      exact hcover.place_unique hu hcovers' ht hcovers
    · rw [hcanvas]
      exact Canvas.ofExposure_holdsAt fb.layout hx hy hcover.apart (Array.mem_toList_iff.mpr hmem)
        (hcover.fits_of_mem hmem) hcovers
  · intro order horder
    rw [hcanvas]
    exact hdrawn horder

theorem drawTiles_assembles_filled_depths :
    ∃ (fb : FrameBuffer) (tiles : Array Tile), fb.Reachable ∧
      fb.layout.TilesFit fb.tileSize ∧ Tile.Cover tiles (fb.tiles.toList.map Tile.region) ∧
      fb.layout = ⟨3, 2, .srgba, ⟨true, false, false⟩⟩ ∧
      (∀ t ∈ tiles, t.depth = Array.ofFn fun i : Fin t.region.pixelCount => Binary32.ofNat i) ∧
      ∃ drawn, drawTiles? { fb with tiles } = some drawn ∧
        drawn.canvas.channels = ⟨true, false, false⟩ ∧
        ∃ t ∈ tiles, t.region.Covers 2 1 ∧ drawn.canvas.HoldsAt .srgba 5 t
          ((1 - t.region.y) * t.region.width + (2 - t.region.x)) := by
  let layout : Layout := ⟨3, 2, .srgba, ⟨true, false, false⟩⟩
  let fill (t : Tile) : Tile :=
    { t with depth := Array.ofFn fun i : Fin t.region.pixelCount => Binary32.ofNat i }
  have hreachable : (blank layout 2).Reachable := ⟨layout, 2, _, [], rfl, rfl⟩
  have htiles := hreachable.wellFormed.tiles
  have hcover : Tile.Cover ((blank layout 2).tiles.map fill)
      ((blank layout 2).tiles.toList.map Tile.region) := by
    rw [htiles.map_region]
    refine htiles.map fun t r hfits => { hfits with depth := ?_ }
    simp [fill, hfits.region]
  have hfits : layout.TilesFit 2 := .of_small (by decide) (by decide) (by decide)
  refine ⟨_, _, hreachable, hfits, hcover, rfl, ?_, ?_⟩
  · intro t ht
    obtain ⟨u, _, rfl⟩ := Array.mem_map.mp ht
    rfl
  · obtain ⟨_, drawn, _, _, _, hdrawn, _, hchannels, hpixels, _⟩ :=
      drawTiles_assembles hreachable hfits hcover
    obtain ⟨i, t, ht, hcovers, _, hholds⟩ := hpixels 2 (by decide) 1 (by decide)
    exact ⟨drawn, hdrawn, hchannels, t, Array.mem_of_getElem? ht, hcovers, hholds⟩

end FrameBuffer

end TileTracer
