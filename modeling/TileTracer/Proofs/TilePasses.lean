import TileTracer.Proofs.ArrayWrites
import TileTracer.Proofs.TileSizes

namespace TileTracer

open TileTracer.ArrayWrites

def Region.gather {β : Type} (r : Region) (f : Nat → Nat → β) : Array β :=
  Array.ofFn fun i : Fin r.pixelCount => f (r.x + i % r.width) (r.y + i / r.width)

theorem Region.size_gather {β : Type} (r : Region) (f : Nat → Nat → β) :
    (r.gather f).size = r.pixelCount := by
  simp [Region.gather]

theorem Region.getElem?_gather {β : Type} (r : Region) (f : Nat → Nat → β) (i : Nat) :
    (r.gather f)[i]? =
      if i < r.pixelCount then some (f (r.x + i % r.width) (r.y + i / r.width)) else none := by
  simp [Region.gather, Array.getElem?_ofFn]

theorem Region.gather_const {β : Type} (r : Region) (b : β) :
    r.gather (fun _ _ => b) = Array.replicate r.pixelCount b := by
  apply Array.ext_getElem?
  intro i
  rw [Region.getElem?_gather, Array.getElem?_replicate]

theorem Region.mapIdx_gather {β γ : Type} (r : Region) (f : Nat → Nat → β)
    (g : Nat → Nat → β → γ) :
    (r.gather f).mapIdx (fun i b => g (r.x + i % r.width) (r.y + i / r.width) b) =
      r.gather (fun x y => g x y (f x y)) := by
  apply Array.ext_getElem?
  intro i
  rw [Array.getElem?_mapIdx, Region.getElem?_gather, Region.getElem?_gather]
  split <;> rfl

theorem Region.map_gather {β γ : Type} (r : Region) (f : Nat → Nat → β) (g : β → γ) :
    (r.gather f).map g = r.gather (fun x y => g (f x y)) := by
  apply Array.ext_getElem?
  intro i
  rw [Array.getElem?_map, Region.getElem?_gather, Region.getElem?_gather]
  split <;> rfl

theorem Region.scatter_range {β : Type} (r : Region) (f : Nat → Nat → β) {a : Array β}
    (hsize : a.size = r.pixelCount) :
    scatter ((List.range r.pixelCount).map fun i =>
      (i, f (r.x + i % r.width) (r.y + i / r.width))) a = r.gather f := by
  rw [scatter_eq_ofFn (fun i => f (r.x + i % r.width) (r.y + i / r.width)) hsize]
  · rfl
  · intro i hi
    exact ⟨_, List.mem_map.mpr ⟨i, List.mem_range.mpr hi, rfl⟩, rfl⟩
  · intro w hw
    obtain ⟨i, _, rfl⟩ := List.mem_map.mp hw
    rfl

/-- What is to be seen at every place of an image. -/
structure Exposure where
  color : Nat → Nat → Vec4 Float32
  depth : Nat → Nat → Float32
  albedo : Nat → Nat → Color
  normal : Nat → Nat → Vec3 Float32

def Exposure.blank : Exposure where
  color _ _ := .zero
  depth _ _ := Scalar.infinity
  albedo _ _ := .zero
  normal _ _ := .zero

namespace Tile

/-- The outputs of the tile are an exposure, cut to its region. -/
structure Shows (t : Tile) (e : Exposure) : Prop where
  color : t.color = t.region.gather e.color
  depth : t.depth = t.region.gather e.depth
  albedo : t.albedo = t.region.gather e.albedo
  normal : t.normal = t.region.gather e.normal

theorem foldl_record (p : Nat → PixelRecord) (order : List Nat) (t : Tile) :
    order.foldl (fun t i => t.record i (p i)) t =
      { t with
        sums := order.foldl (fun a i => a.modify i (· + (p i).sum)) t.sums
        depth := scatter (order.map fun i => (i, (p i).depth)) t.depth
        albedo := scatter (order.map fun i => (i, (p i).albedo)) t.albedo
        normal := scatter (order.map fun i => (i, (p i).normal)) t.normal } := by
  induction order generalizing t with
  | nil => rfl
  | cons i order ih =>
      rw [List.foldl_cons, ih]
      rfl

/-- Recording never changes the region or the number of the pass, so what is recorded may be taken
from the tile at the start. -/
theorem foldl_record_of_start (p : Region → Nat → Nat → PixelRecord) (order : List Nat)
    (t : Tile) :
    order.foldl (fun u i => u.record i (p u.region u.passes i)) t =
      order.foldl (fun u i => u.record i (p t.region t.passes i)) t := by
  suffices h : ∀ u : Tile, u.region = t.region → u.passes = t.passes →
      order.foldl (fun u i => u.record i (p u.region u.passes i)) u =
        order.foldl (fun u i => u.record i (p t.region t.passes i)) u from
    h t rfl rfl
  induction order with
  | nil =>
      intro u _ _
      rfl
  | cons i order ih =>
      intro u hregion hpasses
      rw [List.foldl_cons, List.foldl_cons, hregion, hpasses]
      exact ih _ hregion hpasses

end Tile

namespace Job

variable (job : Job) (world : World) (camera : Camera)

def sumAfter : Nat → Nat → Nat → Vec4 Float32
  | 0, _, _ => .zero
  | pass + 1, x, y => sumAfter pass x y + (job.renderPixel world camera pass x y).sum

/-- What is to be seen after a number of passes: the average of all samples, and beside it what the
last pass met first. -/
def exposureAfter : Nat → Exposure
  | 0 => .blank
  | pass + 1 => {
      color x y := job.sumAfter world camera (pass + 1) x y *
        (1.0 / Binary32.ofNat ((pass + 1) * job.samples))
      depth x y := (job.renderPixel world camera pass x y).depth
      albedo x y := (job.renderPixel world camera pass x y).albedo
      normal x y := (job.renderPixel world camera pass x y).normal }

def tileAfter (r : Region) (passes : Nat) : Tile where
  region := r
  color := r.gather (job.exposureAfter world camera passes).color
  depth := r.gather (job.exposureAfter world camera passes).depth
  albedo := r.gather (job.exposureAfter world camera passes).albedo
  normal := r.gather (job.exposureAfter world camera passes).normal
  sums := r.gather (job.sumAfter world camera passes)
  samples := passes * job.samples
  passes := passes
  generation := if passes = 0 then 0 else job.generation

theorem tileAfter_shows (r : Region) (passes : Nat) :
    (job.tileAfter world camera r passes).Shows (job.exposureAfter world camera passes) :=
  ⟨rfl, rfl, rfl, rfl⟩

theorem samples_pos : 0 < job.samples := by
  unfold samples
  omega

theorem tileAfter_zero (r : Region) : job.tileAfter world camera r 0 = Tile.ofRegion r := by
  simp only [tileAfter, exposureAfter, Exposure.blank, Region.gather_const, Tile.ofRegion,
    show job.sumAfter world camera 0 = fun _ _ => Vec4.zero from rfl, Nat.zero_mul, if_true]

theorem beginPass_tileAfter (r : Region) (passes : Nat) :
    (job.tileAfter world camera r passes).beginPass job.generation =
      { job.tileAfter world camera r passes with generation := job.generation } := by
  unfold Tile.beginPass
  cases passes with
  | zero =>
      rw [tileAfter_zero]
      split
      · rename_i hgeneration
        rw [← hgeneration]
      · simp only [Tile.reset, Tile.ofRegion, Array.size_replicate]
  | succ passes =>
      have hgeneration : (job.tileAfter world camera r (passes + 1)).generation =
          job.generation := by simp [tileAfter]
      rw [if_pos hgeneration, ← hgeneration]

theorem tileAfter_fits (r : Region) (passes generation : Nat) :
    { job.tileAfter world camera r passes with generation }.Fits r := by
  constructor <;> simp only [tileAfter, Region.size_gather]

/-- Rendering every pixel of a tile replaces its outputs and adds to its sums. -/
theorem foldl_renderInto_gather {t : Tile} {r : Region} (h : t.Fits r)
    {f : Nat → Nat → Vec4 Float32} (hsums : t.sums = r.gather f) :
    (List.range r.pixelCount).foldl (job.renderInto world camera) t =
      { t with
        sums := r.gather fun x y => f x y + (job.renderPixel world camera t.passes x y).sum
        depth := r.gather fun x y => (job.renderPixel world camera t.passes x y).depth
        albedo := r.gather fun x y => (job.renderPixel world camera t.passes x y).albedo
        normal := r.gather fun x y => (job.renderPixel world camera t.passes x y).normal } := by
  have hrecords := Tile.foldl_record_of_start
    (fun r pass i => job.renderPixel world camera pass (r.x + i % r.width) (r.y + i / r.width))
    (List.range r.pixelCount) t
  refine hrecords.trans ?_
  rw [Tile.foldl_record, h.region]
  congr 1
  · exact r.scatter_range (fun x y => (job.renderPixel world camera t.passes x y).depth) h.depth
  · exact r.scatter_range (fun x y => (job.renderPixel world camera t.passes x y).albedo) h.albedo
  · exact r.scatter_range (fun x y => (job.renderPixel world camera t.passes x y).normal) h.normal
  · refine (foldl_modify_of_perm _ (List.Perm.of_eq (congrArg List.range h.sums.symm))).trans ?_
    rw [hsums]
    exact r.mapIdx_gather f
      (fun x y sum => sum + (job.renderPixel world camera t.passes x y).sum)

theorem foldl_renderInto_tileAfter (r : Region) (passes generation : Nat) :
    (List.range r.pixelCount).foldl (job.renderInto world camera)
        { job.tileAfter world camera r passes with generation } =
      { job.tileAfter world camera r passes with
        generation
        sums := r.gather (job.sumAfter world camera (passes + 1))
        depth := r.gather (job.exposureAfter world camera (passes + 1)).depth
        albedo := r.gather (job.exposureAfter world camera (passes + 1)).albedo
        normal := r.gather (job.exposureAfter world camera (passes + 1)).normal } :=
  job.foldl_renderInto_gather world camera (job.tileAfter_fits world camera r passes generation) rfl

theorem renderBound_tileAfter (r : Region) (passes : Nat) :
    job.renderBound world camera (job.tileAfter world camera r passes) =
      job.tileAfter world camera r (passes + 1) := by
  have hsamples : passes * job.samples + job.samples = (passes + 1) * job.samples :=
    (Nat.succ_mul passes job.samples).symm
  have hpositive : (passes + 1) * job.samples ≠ 0 :=
    Nat.mul_ne_zero (Nat.succ_ne_zero passes) (Nat.ne_of_gt job.samples_pos)
  unfold renderBound
  rw [beginPass_tileAfter]
  refine (congrArg (Tile.endPass · job.samples)
    (job.foldl_renderInto_tileAfter world camera r passes job.generation)).trans ?_
  simp only [Tile.endPass, tileAfter, hsamples, if_neg hpositive, Region.map_gather,
    if_neg (Nat.succ_ne_zero passes)]
  rfl

end Job

end TileTracer
