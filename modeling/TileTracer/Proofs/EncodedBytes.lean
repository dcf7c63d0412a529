import TileTracer.Proofs.FreshChannels

namespace TileTracer

theorem size_flatMap_of_size {α β : Type} {f : α → Array β} {k : Nat} (h : ∀ a, (f a).size = k)
    (pixels : Array α) : (pixels.flatMap f).size = k * pixels.size := by
  rw [Array.size_flatMap, ← Array.sum_toList, Array.toList_map]
  simp [h, Nat.mul_comm]

theorem getElem?_flatMap_of_length {α β : Type} {f : α → List β} {k : Nat}
    (h : ∀ a, (f a).length = k) (l : List α) (j : Nat) {i : Nat} (hi : i < k) :
    (l.flatMap f)[k * j + i]? = l[j]?.bind fun a => (f a)[i]? := by
  induction l generalizing j with
  | nil => simp
  | cons a l ih =>
      rw [List.flatMap_cons]
      cases j with
      | zero =>
          rw [Nat.mul_zero, Nat.zero_add, List.getElem?_append_left (by rwa [h])]
          rfl
      | succ j =>
          have hskip : k * (j + 1) + i = (f a).length + (k * j + i) := by
            rw [h, Nat.mul_succ]
            omega
          rw [hskip, List.getElem?_append_right (Nat.le_add_right _ _), Nat.add_sub_cancel_left,
            List.getElem?_cons_succ]
          exact ih j

namespace ColorStore

theorem size_toBytes (store : ColorStore) : store.toBytes.size = store.size := by
  cases store <;> simp [toBytes, size]

/-- Encoded early or late, the pixels of an exposure are the same bytes. -/
theorem toBytes_ofExposure {format : PixelFormat} (hformat : format ≠ .rgba8) (r : Region)
    (e : Exposure) :
    (ofExposure format r e).toBytes =
      r.gather fun x y => PixelFormat.srgba.encode (e.color x y) := by
  cases format with
  | rgba8 => exact absurd rfl hformat
  | srgba => rfl
  | rgba32f => exact Region.map_gather r e.color _

end ColorStore

theorem Tile.Cover.exists_color {tiles : Array Tile} {width height tileSize x y : Nat}
    (hcover : Cover tiles (Region.cover width height tileSize)) (hx : x < width) (hy : y < height) :
    ∃ t ∈ tiles, t.region.Covers x y ∧
      t.color[t.region.localIndex x y]? = some ((exposure tiles.toList).color x y) := by
  obtain ⟨i, t, ht, hcovers⟩ := hcover.exists_covers hx hy
  have hmem := Array.mem_of_getElem? ht
  have hlt : t.region.localIndex x y < t.color.size :=
    (hcover.fits_of_mem hmem).color ▸ Region.localIndex_lt hcovers
  have hpixel : (exposure tiles.toList).color x y = t.color[t.region.localIndex x y] := by
    refine (mosaic_of_covers hcover.apart (Array.mem_toList_iff.mpr hmem) hcovers _ _).trans ?_
    rw [Array.getD_eq_getD_getElem?, Array.getElem?_eq_getElem hlt, Option.getD_some]
  exact ⟨t, hmem, hcovers, hpixel ▸ Array.getElem?_eq_getElem hlt⟩

namespace FrameBuffer

/-- A buffer holds the four bytes of a color from some place on. -/
def BytesAt (bytes : Array UInt8) (start : Nat) (c : Vec4 UInt8) : Prop :=
  bytes[start]? = some c.x ∧ bytes[start + 1]? = some c.y ∧ bytes[start + 2]? = some c.z ∧
    bytes[start + 3]? = some c.w

theorem size_toBytes (fb : FrameBuffer) : fb.toBytes.size = 4 * fb.canvas.color.size := by
  rw [← ColorStore.size_toBytes, toBytes]
  exact size_flatMap_of_size (k := 4) (fun _ => rfl) _

theorem toBytes_bytesAt {fb : FrameBuffer} {j : Nat} {c : Vec4 UInt8}
    (h : fb.canvas.color.toBytes[j]? = some c) : BytesAt fb.toBytes (4 * j) c := by
  have hbyte (i : Nat) (hi : i < 4) :
      fb.toBytes[4 * j + i]? = [c.x, c.y, c.z, c.w][i]? := by
    rw [toBytes, ← Array.getElem?_toList, Array.toList_flatMap]
    refine (getElem?_flatMap_of_length (k := 4) (fun _ => rfl) _ j hi).trans ?_
    rw [Array.getElem?_toList, h]
    rfl
  exact ⟨hbyte 0 (by decide), hbyte 1 (by decide), hbyte 2 (by decide), hbyte 3 (by decide)⟩

theorem finish_toBytes (fb : FrameBuffer) (hstages : fb.stages = []) :
    fb.finish.toBytes = fb.drawTiles.toBytes := by
  have hcanvas : fb.finish.canvas = fb.drawTiles.canvas := by
    rw [finish, endFrame, show fb.drawTiles.stages = [] from hstages]
    rfl
  rw [toBytes, toBytes, hcanvas]

theorem WellFormed.drawTiles_colorBytes {fb : FrameBuffer} (h : fb.WellFormed)
    (hformat : fb.layout.format ≠ .rgba8) :
    fb.drawTiles.canvas.color.toBytes =
      (Region.image fb.layout.width fb.layout.height).gather fun x y =>
        PixelFormat.srgba.encode ((Tile.exposure fb.tiles.toList).color x y) := by
  rw [h.drawTiles_eq]
  exact ColorStore.toBytes_ofExposure hformat _ _

/-- Two buffers of one size that words are enough to cover with tiles, one that stores bytes on the
sRGB scale and one that stores floats, make the same bytes of the same tiles, whatever these hold:
for each pixel in turn red, green and blue on the sRGB scale and alpha as it is. -/
theorem Reachable.drawTiles_toBytes_agree {fb fb' : FrameBuffer} (hreachable : fb.Reachable)
    (hreachable' : fb'.Reachable) (hformat : fb.layout.format = .srgba)
    (hformat' : fb'.layout.format = .rgba32f) (hwidth : fb'.layout.width = fb.layout.width)
    (hheight : fb'.layout.height = fb.layout.height) (htileSize : fb'.tileSize = fb.tileSize)
    (hfits : fb.layout.TilesFit fb.tileSize) {tiles : Array Tile}
    (hcover : Tile.Cover tiles
      (Region.cover fb.layout.width fb.layout.height fb.tileSize)) :
    ∃ made drawn drawn' bytes,
      (coverTiles? fb.layout fb.tileSize = some made ∧
        coverTiles? fb'.layout fb'.tileSize = some made ∧
        Tile.Cover made (Region.cover fb.layout.width fb.layout.height fb.tileSize)) ∧
      (drawTiles? { fb with tiles } = some drawn ∧ drawn = drawTiles { fb with tiles } ∧
        drawTiles? { fb' with tiles } = some drawn' ∧ drawn' = drawTiles { fb' with tiles }) ∧
      drawn.toBytes = bytes ∧ drawn'.toBytes = bytes ∧
      (fb.stages = [] → (finish { fb with tiles }).toBytes = bytes) ∧
      (fb'.stages = [] → (finish { fb' with tiles }).toBytes = bytes) ∧
      bytes.size = 4 * fb.layout.width * fb.layout.height ∧
      ∀ x < fb.layout.width, ∀ y < fb.layout.height, ∃ t ∈ tiles, t.region.Covers x y ∧
        ∃ c, t.color[(y - t.region.y) * t.region.width + (x - t.region.x)]? = some c ∧
          BytesAt bytes (4 * (y * fb.layout.width + x))
            ⟨Srgb.toByte (Srgb.encode c.x), Srgb.toByte (Srgb.encode c.y),
              Srgb.toByte (Srgb.encode c.z), Srgb.toByte c.w⟩ := by
  have h : WellFormed { fb with tiles } := { hreachable.wellFormed with tiles := hcover }
  have h' : WellFormed { fb' with tiles } :=
    { hreachable'.wellFormed with tiles := by rwa [hwidth, hheight, htileSize] }
  have hcolor := h.drawTiles_colorBytes (by simp [hformat])
  have hcolor' := h'.drawTiles_colorBytes (by simp [hformat'])
  have hbytes : (drawTiles { fb' with tiles }).toBytes = (drawTiles { fb with tiles }).toBytes := by
    rw [toBytes, toBytes, hcolor, hcolor', hwidth, hheight]
  obtain ⟨made, hmade, hmadeCover⟩ := hfits.exists_cover
  have hmade' : coverTiles? fb'.layout fb'.tileSize = some made := by
    rw [← hmade, coverTiles?, coverTiles?, hwidth, hheight, htileSize]
  refine ⟨made, _, _, _, ⟨hmade, hmade', hmadeCover⟩,
    ⟨h.drawTiles?_eq, rfl, h'.drawTiles?_eq, rfl⟩, rfl, hbytes, finish_toBytes { fb with tiles },
    fun hstages => (finish_toBytes { fb' with tiles } hstages).trans hbytes, ?_, ?_⟩
  · rw [size_toBytes, h.drawTiles.canvas.color.size_eq, Nat.mul_assoc]
    rfl
  · intro x hx y hy
    obtain ⟨t, ht, hcovers, hpixel⟩ := hcover.exists_color hx hy
    refine ⟨t, ht, hcovers, _, hpixel, toBytes_bytesAt ?_⟩
    rw [hcolor]
    exact Region.getElem?_gather_image _ hx hy

theorem drawTiles_toBytes_agree_not_finite :
    ∃ (fb fb' : FrameBuffer) (tiles : Array Tile), fb.Reachable ∧ fb'.Reachable ∧
      fb.layout = ⟨2, 1, .srgba, ⟨true, false, false⟩⟩ ∧
      fb'.layout = ⟨2, 1, .rgba32f, ⟨false, true, false⟩⟩ ∧ fb.layout.TilesFit fb.tileSize ∧
      Tile.Cover tiles (Region.cover 2 1 1) ∧
      ∃ bytes, (finish { fb with tiles }).toBytes = bytes ∧
        (finish { fb' with tiles }).toBytes = bytes ∧ bytes.size = 8 ∧
        BytesAt bytes 4
          ⟨Srgb.toByte (Srgb.encode (0.0 / 0.0)), Srgb.toByte (Srgb.encode (1.0 / 0.0)), 0, 128⟩ := by
  let layout : Layout := ⟨2, 1, .srgba, ⟨true, false, false⟩⟩
  let layout' : Layout := ⟨2, 1, .rgba32f, ⟨false, true, false⟩⟩
  let pixel : Vec4 Float32 := ⟨0.0 / 0.0, 1.0 / 0.0, -1.0, 0.5⟩
  let fill (t : Tile) : Tile := { t with color := Array.replicate t.region.pixelCount pixel }
  have hreachable : (blank layout 1).Reachable := ⟨layout, 1, _, [], rfl, rfl⟩
  have hreachable' : (blank layout' 1).Reachable := ⟨layout', 1, _, [], rfl, rfl⟩
  have hcover : Tile.Cover ((blank layout 1).tiles.map fill) (Region.cover 2 1 1) := by
    refine hreachable.wellFormed.tiles.map fun t r hfits => { hfits with color := ?_ }
    simp [fill, hfits.region]
  have hfits : layout.TilesFit 1 := .of_small (by decide) (by decide) (by decide)
  obtain ⟨_, _, _, bytes, -, -, -, -, hsrgb, hfloat, hsize, hpixels⟩ :=
    hreachable.drawTiles_toBytes_agree hreachable' rfl rfl rfl rfl rfl hfits hcover
  obtain ⟨t, ht, -, c, hc, hbytes⟩ := hpixels 1 (by decide) 0 (by decide)
  have hpixel : c = pixel := by
    obtain ⟨u, _, rfl⟩ := Array.mem_map.mp ht
    exact (Array.mem_replicate.mp (Array.mem_of_getElem? hc)).2
  have hblue : Srgb.toByte (Srgb.encode (-1.0)) = 0 := by decide +kernel
  have halpha : Srgb.toByte 0.5 = 128 := by decide +kernel
  refine ⟨_, _, _, hreachable, hreachable', rfl, rfl, hfits, hcover, bytes, hsrgb rfl, hfloat rfl,
    hsize, ?_⟩
  rw [hpixel] at hbytes
  rwa [hblue, halpha] at hbytes

end FrameBuffer

end TileTracer
