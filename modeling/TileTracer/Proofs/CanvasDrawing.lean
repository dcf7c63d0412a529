import TileTracer.Frame.Operation
import TileTracer.Proofs.RegionCover
import TileTracer.Proofs.TilePasses

namespace TileTracer

open TileTracer.ArrayWrites

namespace Region

def image (width height : Nat) : Region := ⟨0, 0, width, height, 0⟩

/-- What drawing a buffer over a region writes into an image. -/
def writes {β : Type} (r : Region) (width : Nat) (buffer : Array β) (absent : β) :
    List (Nat × β) :=
  (List.range r.pixelCount).map fun i => (Canvas.imageIndex width r i, buffer.getD i absent)

theorem map_writes {β γ : Type} (r : Region) (width : Nat) (buffer : Array β) (absent : β)
    (g : β → γ) :
    (r.writes width buffer absent).map (fun w => (w.1, g w.2)) =
      r.writes width (buffer.map g) (g absent) := by
  simp only [writes, List.map_map]
  apply List.map_congr_left
  intro i _
  simp only [Function.comp_apply, Array.getD_eq_getD_getElem?, Array.getElem?_map]
  cases buffer[i]? <;> rfl

theorem row_index_div {width column : Nat} (row : Nat) (hcolumn : column < width) :
    (row * width + column) / width = row := by
  rw [Nat.mul_comm, Nat.mul_add_div (Nat.zero_lt_of_lt hcolumn), Nat.div_eq_of_lt hcolumn,
    Nat.add_zero]

theorem column_lt {width height i : Nat} {r : Region} (hinside : r.Inside width height)
    (hi : i < r.pixelCount) : r.x + i % r.width < width := by
  have hpos : 0 < r.width := Nat.pos_of_mul_pos_right (Nat.zero_lt_of_lt hi)
  have hmod := Nat.mod_lt i hpos
  have hright := hinside.1
  omega

theorem imageIndex_mod {width height i : Nat} {r : Region} (hinside : r.Inside width height)
    (hi : i < r.pixelCount) : Canvas.imageIndex width r i % width = r.x + i % r.width :=
  Nat.mul_add_mod_of_lt (column_lt hinside hi)

theorem imageIndex_div {width height i : Nat} {r : Region} (hinside : r.Inside width height)
    (hi : i < r.pixelCount) : Canvas.imageIndex width r i / width = r.y + i / r.width :=
  row_index_div _ (column_lt hinside hi)

theorem exists_imageIndex {x y : Nat} {r : Region} (width : Nat) (hcovers : r.Covers x y) :
    ∃ i < r.pixelCount, Canvas.imageIndex width r i = y * width + x := by
  obtain ⟨hxlow, hxhigh, hylow, hyhigh⟩ := hcovers
  have hcolumn : x - r.x < r.width := by omega
  have hrow : y - r.y < r.height := by omega
  have hmod : ((y - r.y) * r.width + (x - r.x)) % r.width = x - r.x :=
    Nat.mul_add_mod_of_lt hcolumn
  refine ⟨(y - r.y) * r.width + (x - r.x), row_index_lt hcolumn hrow, ?_⟩
  rw [Canvas.imageIndex, hmod, row_index_div _ hcolumn, Nat.add_sub_cancel' hxlow,
    Nat.add_sub_cancel' hylow]

/-- Regions that cover an image and are filled from one function of the place fill the image from
that function. -/
theorem scatter_writes {β : Type} {width height : Nat} {regions : List Region}
    (hinside : ∀ r ∈ regions, r.Inside width height)
    (hcover : ∀ x < width, ∀ y < height, ∃ r ∈ regions, r.Covers x y)
    (f : Nat → Nat → β) (absent : β) {a : Array β} (hsize : a.size = width * height) :
    scatter (regions.flatMap fun r => r.writes width (r.gather f) absent) a =
      (image width height).gather f := by
  rw [scatter_eq_ofFn (fun j => f (j % width) (j / width)) hsize]
  · simp only [gather, image, Nat.zero_add]
    rfl
  · intro j hj
    have hwidth : 0 < width := Nat.pos_of_mul_pos_right (Nat.zero_lt_of_lt hj)
    have hrow : j / width < height := Nat.div_lt_of_lt_mul hj
    obtain ⟨r, hr, hcovers⟩ := hcover (j % width) (Nat.mod_lt j hwidth) (j / width) hrow
    obtain ⟨i, hi, hindex⟩ := exists_imageIndex width hcovers
    refine ⟨_, List.mem_flatMap.mpr ⟨r, hr, List.mem_map.mpr ⟨i, List.mem_range.mpr hi, rfl⟩⟩, ?_⟩
    rw [hindex, Nat.mul_comm, Nat.div_add_mod]
  · intro w hw
    obtain ⟨r, hr, hwrites⟩ := List.mem_flatMap.mp hw
    obtain ⟨i, hrange, rfl⟩ := List.mem_map.mp hwrites
    have hi := List.mem_range.mp hrange
    rw [imageIndex_mod (hinside r hr) hi, imageIndex_div (hinside r hr) hi,
      Array.getD_eq_getD_getElem?, getElem?_gather, if_pos hi, Option.getD_some]

end Region

namespace ColorStore

def Fits (store : ColorStore) (format : PixelFormat) (n : Nat) : Prop :=
  match format, store with
  | .rgba32f, floats pixels => pixels.size = n
  | .rgba8, bytes pixels => pixels.size = n
  | .srgba, bytes pixels => pixels.size = n
  | _, _ => False

def write (store : ColorStore) (format : PixelFormat) (colors : List (Nat × Vec4 Float32)) :
    ColorStore :=
  match store with
  | bytes pixels => .bytes (scatter (colors.map fun w => (w.1, format.encode w.2)) pixels)
  | floats pixels => .floats (scatter colors pixels)

theorem write_append (store : ColorStore) (format : PixelFormat)
    (first second : List (Nat × Vec4 Float32)) :
    store.write format (first ++ second) = (store.write format first).write format second := by
  cases store with
  | bytes pixels => simp only [write, List.map_append, scatter_append]
  | floats pixels => simp only [write, scatter_append]

def ofExposure (format : PixelFormat) (r : Region) (e : Exposure) : ColorStore :=
  match format with
  | .rgba8 | .srgba => .bytes (r.gather fun x y => format.encode (e.color x y))
  | .rgba32f => .floats (r.gather e.color)

end ColorStore

namespace Canvas

/-- The canvas has the channels of a layout, each of the right size. -/
structure Fits (canvas : Canvas) (layout : Layout) : Prop where
  color : canvas.color.Fits layout.format layout.pixelCount
  depth : canvas.depth.map Array.size =
    if layout.channels.depth then some layout.pixelCount else none
  albedo : canvas.albedo.map Array.size =
    if layout.channels.albedo then some layout.pixelCount else none
  normal : canvas.normal.map Array.size =
    if layout.channels.normal then some layout.pixelCount else none

theorem blank_fits (layout : Layout) : (blank layout).Fits layout := by
  constructor
  · unfold blank ColorStore.blank ColorStore.Fits
    cases layout.format <;> simp
  all_goals
    simp only [blank]
    split <;> simp

def ofExposure (layout : Layout) (e : Exposure) : Canvas :=
  let r := Region.image layout.width layout.height
  { color := .ofExposure layout.format r e
    depth := if layout.channels.depth then some (r.gather e.depth) else none
    albedo := if layout.channels.albedo then some (r.gather e.albedo) else none
    normal := if layout.channels.normal then some (r.gather e.normal) else none }

def write (canvas : Canvas) (format : PixelFormat) (colors : List (Nat × Vec4 Float32))
    (depths : List (Nat × Float32)) (albedos : List (Nat × Color))
    (normals : List (Nat × Vec3 Float32)) : Canvas where
  color := canvas.color.write format colors
  depth := canvas.depth.map (scatter depths)
  albedo := canvas.albedo.map (scatter albedos)
  normal := canvas.normal.map (scatter normals)

theorem write_nil (canvas : Canvas) (format : PixelFormat) :
    canvas.write format [] [] [] [] = canvas := by
  obtain ⟨color, depth, albedo, normal⟩ := canvas
  cases color <;> cases depth <;> cases albedo <;> cases normal <;> rfl

theorem write_append (canvas : Canvas) (format : PixelFormat)
    (colors colors' : List (Nat × Vec4 Float32)) (depths depths' : List (Nat × Float32))
    (albedos albedos' : List (Nat × Color)) (normals normals' : List (Nat × Vec3 Float32)) :
    canvas.write format (colors ++ colors') (depths ++ depths') (albedos ++ albedos')
        (normals ++ normals') =
      (canvas.write format colors depths albedos normals).write format colors' depths' albedos'
        normals' := by
  simp only [write, ColorStore.write_append, Option.map_map]
  congr 1 <;>
    exact Option.map_congr fun a _ => scatter_append _ _ a

theorem copyPixel_eq_write (canvas : Canvas) (format : PixelFormat) (tile : Tile)
    (source target : Nat) :
    canvas.copyPixel format tile source target =
      canvas.write format [(target, tile.color.getD source .zero)]
        [(target, tile.depth.getD source 0.0)] [(target, tile.albedo.getD source .zero)]
        [(target, tile.normal.getD source .zero)] := by
  obtain ⟨color, depth, albedo, normal⟩ := canvas
  cases color <;> rfl

theorem drawTile_eq_write (canvas : Canvas) (layout : Layout) (tile : Tile) :
    canvas.drawTile layout tile =
      canvas.write layout.format (tile.region.writes layout.width tile.color .zero)
        (tile.region.writes layout.width tile.depth 0.0)
        (tile.region.writes layout.width tile.albedo .zero)
        (tile.region.writes layout.width tile.normal .zero) := by
  unfold drawTile Region.writes
  generalize List.range tile.region.pixelCount = order
  induction order generalizing canvas with
  | nil => exact (canvas.write_nil layout.format).symm
  | cons i order ih =>
      rw [List.foldl_cons, ih, copyPixel_eq_write]
      exact (canvas.write_append layout.format [_] _ [_] _ [_] _ [_] _).symm

theorem foldl_drawTile_eq_write (canvas : Canvas) (layout : Layout) (tiles : List Tile) :
    tiles.foldl (fun canvas tile => canvas.drawTile layout tile) canvas =
      canvas.write layout.format
        (tiles.flatMap fun t => t.region.writes layout.width t.color .zero)
        (tiles.flatMap fun t => t.region.writes layout.width t.depth 0.0)
        (tiles.flatMap fun t => t.region.writes layout.width t.albedo .zero)
        (tiles.flatMap fun t => t.region.writes layout.width t.normal .zero) := by
  induction tiles generalizing canvas with
  | nil => exact (canvas.write_nil layout.format).symm
  | cons tile tiles ih =>
      rw [List.foldl_cons, ih, drawTile_eq_write]
      exact (canvas.write_append layout.format _ _ _ _ _ _ _ _).symm

theorem map_scatter_channel {β : Type} {channel : Option (Array β)} {present : Bool} {n : Nat}
    {writes : List (Nat × β)} {b : Array β}
    (hsize : channel.map Array.size = if present then some n else none)
    (hscatter : ∀ a : Array β, a.size = n → scatter writes a = b) :
    channel.map (scatter writes) = if present then some b else none := by
  cases channel with
  | none =>
      cases present with
      | true => simp at hsize
      | false => rfl
  | some a =>
      cases present with
      | true =>
          have ha : a.size = n := by simpa using hsize
          simp [hscatter a ha]
      | false => simp at hsize

theorem color_write_of_scatter {store : ColorStore} {format : PixelFormat} {n : Nat}
    {colors : List (Nat × Vec4 Float32)} {r : Region} {e : Exposure} (hfits : store.Fits format n)
    (hfloats : ∀ a : Array (Vec4 Float32), a.size = n → scatter colors a = r.gather e.color)
    (hbytes : ∀ a : Array (Vec4 UInt8), a.size = n →
      scatter (colors.map fun w => (w.1, format.encode w.2)) a =
        r.gather fun x y => format.encode (e.color x y)) :
    store.write format colors = .ofExposure format r e := by
  cases store with
  | bytes pixels =>
      cases format with
      | rgba8 => exact congrArg ColorStore.bytes (hbytes pixels hfits)
      | srgba => exact congrArg ColorStore.bytes (hbytes pixels hfits)
      | rgba32f => exact hfits.elim
  | floats pixels =>
      cases format with
      | rgba8 => exact hfits.elim
      | srgba => exact hfits.elim
      | rgba32f => exact congrArg ColorStore.floats (hfloats pixels hfits)

/-- Tiles that show an exposure and cover the image draw the exposure, whatever the canvas held
before. -/
theorem foldl_drawTile_eq_ofExposure {canvas : Canvas} {layout : Layout} {tiles : List Tile}
    {e : Exposure} (hfits : canvas.Fits layout) (hshows : ∀ t ∈ tiles, t.Shows e)
    (hinside : ∀ t ∈ tiles, t.region.Inside layout.width layout.height)
    (hcover : ∀ x < layout.width, ∀ y < layout.height, ∃ t ∈ tiles, t.region.Covers x y) :
    tiles.foldl (fun canvas tile => canvas.drawTile layout tile) canvas =
      ofExposure layout e := by
  -- One channel at a time, drawing writes the buffers of all tiles one after the other.
  have hscatter {β : Type} (buffer : Tile → Array β) (f : Nat → Nat → β) (absent : β)
      (hbuffer : ∀ t ∈ tiles, buffer t = t.region.gather f) (a : Array β)
      (ha : a.size = layout.pixelCount) :
      scatter (tiles.flatMap fun t => t.region.writes layout.width (buffer t) absent) a =
        (Region.image layout.width layout.height).gather f := by
    have hregions : (tiles.flatMap fun t => t.region.writes layout.width (buffer t) absent) =
        (tiles.map Tile.region).flatMap fun r => r.writes layout.width (r.gather f) absent := by
      rw [List.flatMap_map]
      exact List.flatMap_congr fun t ht => by rw [hbuffer t ht]
    rw [hregions]
    refine Region.scatter_writes ?_ ?_ f absent ha
    · intro r hr
      obtain ⟨t, ht, rfl⟩ := List.mem_map.mp hr
      exact hinside t ht
    · intro x hx y hy
      obtain ⟨t, ht, hcovers⟩ := hcover x hx y hy
      exact ⟨t.region, List.mem_map_of_mem ht, hcovers⟩
  rw [foldl_drawTile_eq_write, write, ofExposure]
  congr 1
  · refine color_write_of_scatter hfits.color
      (hscatter Tile.color e.color _ fun t ht => (hshows t ht).color) ?_
    simp only [List.map_flatMap, Region.map_writes]
    refine hscatter (fun t => t.color.map layout.format.encode) _ _ ?_
    intro t ht
    rw [(hshows t ht).color, Region.map_gather]
  · exact map_scatter_channel hfits.depth
      (hscatter Tile.depth e.depth _ fun t ht => (hshows t ht).depth)
  · exact map_scatter_channel hfits.albedo
      (hscatter Tile.albedo e.albedo _ fun t ht => (hshows t ht).albedo)
  · exact map_scatter_channel hfits.normal
      (hscatter Tile.normal e.normal _ fun t ht => (hshows t ht).normal)

theorem ofExposure_fits (layout : Layout) (e : Exposure) : (ofExposure layout e).Fits layout := by
  have hsize {β : Type} (f : Nat → Nat → β) :
      ((Region.image layout.width layout.height).gather f).size = layout.pixelCount :=
    Region.size_gather _ f
  constructor
  · unfold ofExposure ColorStore.ofExposure ColorStore.Fits
    cases layout.format <;> exact hsize _
  all_goals
    simp only [ofExposure]
    split <;> simp [hsize]

end Canvas

namespace FrameOp

theorem paintDepth_fits {store : ColorStore} {format : PixelFormat} {n : Nat}
    (range : DepthRange) (depths : Array Float32) (hfits : store.Fits format n) :
    (paintDepth range depths store).Fits format n := by
  revert hfits
  cases store <;> cases format <;> simp [paintDepth, ColorStore.Fits]

theorem run_fits (op : FrameOp) {canvas : Canvas} {layout : Layout} (hfits : canvas.Fits layout) :
    (op.run canvas).Fits layout := by
  cases op with
  | depth =>
      unfold run
      dsimp only
      split
      · refine ⟨paintDepth_fits _ _ hfits.color, hfits.depth, ?_, hfits.normal⟩
        rw [← hfits.albedo, runDepth, Option.map_map]
        exact Option.map_congr fun albedo _ => Array.size_mapIdx
      · exact hfits
  | toneMap exposure =>
      unfold run
      dsimp only
      split
      · rename_i pixels hpixels
        refine ⟨?_, hfits.depth, hfits.albedo, hfits.normal⟩
        have hcolor := hfits.color
        rw [hpixels] at hcolor
        revert hcolor
        cases layout.format <;> simp [ColorStore.Fits]
      · exact hfits

theorem foldl_run_fits {canvas : Canvas} {layout : Layout} (hfits : canvas.Fits layout)
    (stages : List Stage) :
    (stages.foldl (fun canvas stage => stage.op.run canvas) canvas).Fits layout := by
  induction stages generalizing canvas with
  | nil => exact hfits
  | cons stage stages ih => exact ih (stage.op.run_fits hfits)

end FrameOp

end TileTracer
