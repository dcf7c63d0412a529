import TileTracer.Render.Job

namespace TileTracer

namespace Tile

/-- The tile lies over a region, and its buffers have the size of it. -/
structure Fits (t : Tile) (r : Region) : Prop where
  region : t.region = r
  color : t.color.size = r.pixelCount
  depth : t.depth.size = r.pixelCount
  albedo : t.albedo.size = r.pixelCount
  normal : t.normal.size = r.pixelCount
  sums : t.sums.size = r.pixelCount

theorem ofRegion_fits (r : Region) : (ofRegion r).Fits r := by
  constructor <;> simp [ofRegion]

variable {t : Tile} {r : Region}

theorem Fits.reset (h : t.Fits r) : t.reset.Fits r :=
  { h with sums := by simp [Tile.reset, h.sums] }

theorem Fits.beginPass (h : t.Fits r) (generation : Nat) : (t.beginPass generation).Fits r := by
  unfold Tile.beginPass
  split
  · exact h
  · exact { h.reset with }

theorem Fits.record (h : t.Fits r) (i : Nat) (p : PixelRecord) : (t.record i p).Fits r where
  region := h.region
  color := h.color
  depth := by simp [Tile.record, h.depth]
  albedo := by simp [Tile.record, h.albedo]
  normal := by simp [Tile.record, h.normal]
  sums := by simp [Tile.record, h.sums]

def average (samples : Nat) (sum : Vec4 Float32) : Vec4 Float32 :=
  sum * ((1.0 : Float32) / Binary32.ofNat samples)

theorem endPass_eq (t : Tile) (samples : Nat) :
    t.endPass samples = { t with
      samples := t.samples + samples
      passes := t.passes + 1
      color := if t.samples + samples = 0 then t.color
        else t.sums.map (average (t.samples + samples)) } := by
  unfold endPass
  dsimp only
  split <;> rfl

/-- The commit that the samples of a tile belong to, the passes and the samples. -/
def counters (t : Tile) : Nat × Nat × Nat := (t.generation, t.passes, t.samples)

theorem endPass_counters (t : Tile) (samples : Nat) :
    (t.endPass samples).counters =
      (t.counters.1, t.counters.2.1 + 1, t.counters.2.2 + samples) := by
  rw [endPass_eq]
  rfl

theorem endPass_samples (t : Tile) (samples : Nat) :
    (t.endPass samples).samples = t.samples + samples := by
  rw [endPass_eq]

theorem endPass_passes (t : Tile) (samples : Nat) : (t.endPass samples).passes = t.passes + 1 := by
  rw [endPass_eq]

theorem Fits.endPass (h : t.Fits r) (samples : Nat) : (t.endPass samples).Fits r := by
  rw [endPass_eq]
  refine { h with color := ?_ }
  dsimp only
  split
  · exact h.color
  · rw [Array.size_map, h.sums]

end Tile

namespace Job

variable {t : Tile} {r : Region} (job : Job)

theorem foldl_renderInto_fits (world : World) (camera : Camera) (h : t.Fits r)
    (pixels : List Nat) : (pixels.foldl (job.renderInto world camera) t).Fits r := by
  induction pixels generalizing t with
  | nil => exact h
  | cons i pixels ih => exact ih (h.record i _)

theorem foldl_renderInto_counters (world : World) (camera : Camera)
    (pixels : List Nat) (t : Tile) :
    (pixels.foldl (job.renderInto world camera) t).counters = t.counters := by
  induction pixels generalizing t with
  | nil => rfl
  | cons i pixels ih => exact ih _

theorem renderBound_counters (world : World) (camera : Camera) (t : Tile) :
    (job.renderBound world camera t).counters =
      ((t.beginPass job.generation).generation, (t.beginPass job.generation).passes + 1,
        (t.beginPass job.generation).samples + job.samples) := by
  unfold renderBound
  dsimp only
  rw [Tile.endPass_counters, foldl_renderInto_counters]
  rfl

theorem renderTile_fits (h : t.Fits r) : (job.renderTile t).Fits r := by
  unfold renderTile
  split
  · exact (job.foldl_renderInto_fits _ _ (h.beginPass _) _).endPass _
  · exact h

end Job

end TileTracer
