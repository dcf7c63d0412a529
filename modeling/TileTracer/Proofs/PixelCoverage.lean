import TileTracer.Proofs.Binary32Reciprocals
import TileTracer.Proofs.FirstHits
import TileTracer.Proofs.TileHistory

namespace TileTracer

open TileTracer.Random (Stream)

/-! ## Coverage of a sample -/

namespace Path

variable {settings : Settings} {world : World} {screen : Vec2 Float32}

/-- The first segment finds something to be shown: a medium to scatter in, a surface or the
backplate. -/
def shows (settings : Settings) (world : World) (ray : Ray Float32) (rng : Stream) : Bool :=
  let w := Window.startingAt settings.epsilon
  let surface := world.trace ray w
  let near := (surface.map (·.t)).getD Scalar.infinity
  (mediumEvent world ray (w.upTo near) rng).1.isSome || surface.isSome || settings.backplate.isSome

theorem note_alpha (p : Path) (isFirst : Bool) (hit : FirstHit) :
    (p.note isFirst hit).sample.alpha = if isFirst then 1.0 else p.sample.alpha := by
  cases isFirst <;> rfl

theorem escape_alpha (p : Path) (isFirst : Bool) :
    (p.escape settings screen isFirst).sample.alpha =
      if isFirst && settings.backplate.isSome then 1.0 else p.sample.alpha := by
  unfold escape
  cases settings.backplate <;> cases isFirst <;> rfl

theorem scatterInMedium_alpha (isFirst : Bool) (p : Path) (t : Float32) (medium : Medium) :
    (scatterInMedium settings isFirst p t medium).path.sample.alpha =
      if isFirst then 1.0 else p.sample.alpha := by
  unfold scatterInMedium
  rw [continued_sample, note_alpha]

theorem meet_alpha (material : Material) (isFirst : Bool) (p : Path) (hit : Hit Float32) :
    (p.meet settings material isFirst hit).path.sample.alpha =
      if isFirst then 1.0 else p.sample.alpha := by
  rw [← note_alpha p isFirst ⟨hit.t * p.ray.direction.length, material.albedo, hit.normal⟩]
  unfold meet
  dsimp only
  split
  · rfl
  · rw [continued_sample]
    rfl

/-- The first segment alone decides on the coverage. -/
theorem segment_alpha (isFirst : Bool) (p : Path) :
    (p.segment settings world screen isFirst).path.sample.alpha =
      if isFirst && shows settings world p.ray p.rng then 1.0 else p.sample.alpha := by
  rw [segment, shows]
  dsimp only
  rcases mediumEvent world p.ray _ p.rng with ⟨_ | ⟨t, medium⟩, rng⟩
  · cases world.trace p.ray (.startingAt settings.epsilon) with
    | none => exact escape_alpha _ _
    | some hit =>
        refine (meet_alpha _ _ _ _).trans ?_
        rw [Option.isSome_some, Bool.or_true, Bool.true_or, Bool.and_true]
  · refine (scatterInMedium_alpha _ _ _ _).trans ?_
    rw [Option.isSome_some, Bool.true_or, Bool.true_or, Bool.and_true]

theorem follow_alpha_of_later (n : Nat) (p : Path) :
    (p.follow settings world screen n false).sample.alpha = p.sample.alpha := by
  induction n generalizing p with
  | zero => rfl
  | succ n ih =>
      have hsegment := @segment_alpha settings world screen false p
      rw [follow]
      revert hsegment
      cases p.segment settings world screen false with
      | ended q => exact id
      | onward q => exact (ih q).trans

theorem trace_alpha (hdepth : 0 < settings.maxDepth) (ray : Ray Float32) (rng : Stream) :
    (trace settings world screen ray rng).sample.alpha =
      if shows settings world ray rng then 1.0 else 0.0 := by
  obtain ⟨n, hn⟩ := Nat.exists_eq_add_one.mpr (UInt32.lt_iff_toNat_lt.mp hdepth)
  have hsegment := @segment_alpha settings world screen true (start ray rng)
  rw [trace, hn, follow]
  revert hsegment
  cases (start ray rng).segment settings world screen true with
  | ended q => exact id
  | onward q => exact (follow_alpha_of_later n q).trans

end Path

/-! ## Coverage of a pass -/

namespace Shot

variable (s : Shot) (pass x y : Nat)

def passPaths : List Path :=
  s.samplePaths x y s.samples (Stream.ofSeed (pixelSeed x.toUInt32 y.toUInt32 pass.toUInt32))

def Covers : Prop := ∀ path ∈ s.passPaths pass x y, path.sample.alpha = 1.0

theorem length_samplePaths (n : Nat) (rng : Stream) : (s.samplePaths x y n rng).length = n := by
  induction n generalizing rng with
  | zero => rfl
  | succ n ih => rw [samplePaths, List.length_cons, ih]

theorem alpha_of_mem_samplePaths (hdepth : 0 < s.settings.maxDepth)
    (hbackplate : s.settings.backplate.isSome = true) {n : Nat} {rng : Stream} {path : Path}
    (h : path ∈ s.samplePaths x y n rng) : path.sample.alpha = 1.0 := by
  induction n generalizing rng with
  | zero => cases h
  | succ n ih =>
      rcases List.mem_cons.mp h with rfl | h
      · refine (Path.trace_alpha hdepth _ _).trans (if_pos ?_)
        exact (congrArg (Bool.or _) hbackplate).trans (Bool.or_true _)
      · exact ih h

/-- With a backplate nothing shows through. -/
theorem covers_of_backplate (hdepth : 0 < s.settings.maxDepth)
    (hbackplate : s.settings.backplate.isSome = true) : s.Covers pass x y :=
  fun _ => s.alpha_of_mem_samplePaths x y hdepth hbackplate

end Shot

open Binary32 (value? Recovers)

theorem Path.value?_sumFrom_w {paths : List Path} (h : ∀ path ∈ paths, path.sample.alpha = 1.0)
    {sum : Vec4 Float32} {m : Nat} (hsum : value? sum.w = some (m : ℚ))
    (hcount : m + paths.length < 2 ^ 24) :
    value? (sumFrom sum paths).w = some ((m + paths.length : Nat) : ℚ) := by
  induction paths generalizing sum m with
  | nil => exact hsum
  | cons path paths ih =>
      obtain ⟨hpath, hpaths⟩ := List.forall_mem_cons.mp h
      rw [List.length_cons] at hcount ⊢
      have hone : value? path.sample.alpha = some ((1 : Nat) : ℚ) := by
        rw [hpath, Nat.cast_one]
        exact Binary32.value?_one
      have hadd : value? (sum + path.sample.radiance.extend path.sample.alpha).w =
          some ((m + 1 : Nat) : ℚ) :=
        Binary32.value?_add_natCast hsum hone (by omega)
      have hrest := ih hpaths hadd (by omega)
      rw [Nat.add_right_comm] at hrest
      exact hrest

theorem Shot.value?_find_w (s : Shot) {pass x y : Nat} (h : s.Covers pass x y)
    (hcount : s.samples < 2 ^ 24) : value? (s.find pass x y).sum.w = some (s.samples : ℚ) := by
  have hlength : (s.passPaths pass x y).length = s.samples := s.length_samplePaths x y _ _
  have hzero : value? (Vec4.zero : Vec4 Float32).w = some ((0 : Nat) : ℚ) := by
    rw [Nat.cast_zero]
    exact Binary32.value?_zero
  have hsum := Path.value?_sumFrom_w h hzero (by omega)
  rwa [hlength, Nat.zero_add] at hsum

/-! ## Coverage of a tile -/

namespace BoundJob

/-- Every sample that the passes of some jobs take covers the pixel. -/
def Covered (jobs : List BoundJob) (x y : Nat) : Prop :=
  ∀ job ∈ jobs.zipIdx, job.1.Covers job.2 x y

theorem covered_of_backplates {jobs : List BoundJob}
    (h : ∀ job ∈ jobs, 0 < job.settings.maxDepth ∧ job.settings.backplate.isSome = true)
    (x y : Nat) : Covered jobs x y := by
  intro job hjob
  obtain ⟨hdepth, hbackplate⟩ := h job.1 (List.fst_mem_of_mem_zipIdx hjob)
  exact job.1.covers_of_backplate job.2 x y hdepth hbackplate

theorem value?_sumOf_w {jobs : List BoundJob} {x y : Nat} (h : Covered jobs x y)
    (hcount : sampleCount jobs < 2 ^ 24) :
    value? (sumOf jobs x y).w = some (sampleCount jobs : ℚ) := by
  induction jobs using List.reverseRecOn with
  | nil =>
      rw [sampleCount, List.map_nil, List.sum_nil, Nat.cast_zero]
      exact Binary32.value?_zero
  | append_singleton jobs b ih =>
      unfold Covered at h
      rw [List.zipIdx_append, List.forall_mem_append] at h
      rw [sampleCount_concat] at hcount ⊢
      rw [sumOf_concat]
      have hlast : b.Covers jobs.length x y := by
        simpa using h.2
      exact Binary32.value?_add_natCast (ih h.1 (by omega))
        (b.value?_find_w hlast (by omega)) hcount

end BoundJob

namespace Tile

open TileTask (recent calls)
open BoundJob (sampleCount Covered)

theorem ofPasses_coverage {r : Region} {before : List BoundJob} {last : BoundJob} {i : Nat}
    (hi : i < r.pixelCount)
    (hcovered : Covered (before ++ [last]) (r.x + i % r.width) (r.y + i / r.width))
    (hcount : sampleCount (before ++ [last]) < 2 ^ 24) :
    ∃ c, (ofPasses r before last).color[i]? = some c ∧
      value? c.w =
        some (if Recovers (sampleCount (before ++ [last])) then 1 else 1 - 1 / 2 ^ 24) := by
  have hpos : 0 < sampleCount (before ++ [last]) := by
    rw [BoundJob.sampleCount_concat]
    exact Nat.add_pos_right _ last.samples_pos
  refine ⟨_, (r.getElem?_gather _ i).trans (if_pos hi), ?_⟩
  exact Binary32.value?_mul_reciprocal hpos hcount (BoundJob.value?_sumOf_w hcovered hcount)

/-- Whatever was done to a tile before: if every sample since it started over covers a pixel, the
coverage of the pixel is that of the number of samples, times its rounded reciprocal. -/
theorem performAll_coverage (r : Region) (tasks : List TileTask) (b : BoundJob) {i : Nat}
    (hi : i < r.pixelCount)
    (hcovered : Covered (recent b.generation (calls (tasks ++ [TileTask.render b.job])))
      (r.x + i % r.width) (r.y + i / r.width))
    (hcount :
      sampleCount (recent b.generation (calls (tasks ++ [TileTask.render b.job]))) < 2 ^ 24) :
    let tile := (ofRegion r).performAll (tasks ++ [TileTask.render b.job])
    tile.samples = sampleCount (recent b.generation (calls (tasks ++ [TileTask.render b.job]))) ∧
      ∃ c, tile.color[i]? = some c ∧
        value? c.w = some (if Recovers tile.samples then 1 else 1 - 1 / 2 ^ 24) := by
  have hrecent : recent b.generation (calls (tasks ++ [TileTask.render b.job])) =
      recent b.generation (calls tasks) ++ [b] := by
    rw [TileTask.calls_concat_render]
    exact TileTask.recent_concat_same (calls tasks) b
  rw [hrecent] at hcovered hcount ⊢
  rw [performAll_concat, perform, (performAll_follows r tasks).renderTile b]
  exact ⟨rfl, ofPasses_coverage hi hcovered hcount⟩

def plateShot (samples : UInt32) : Shot where
  settings := { Settings.default with
    maxDepth := 1, samplesPerPixel := samples, backplate := some (.solid .zero) }
  world := (World.commit .empty).2
  camera := .default
  width := 1
  height := 1

/-- Two passes of 2 and of 3 samples, behind a pass of another commit. -/
theorem performAll_coverage_five :
    let r : Region := ⟨0, 0, 1, 1, 0⟩
    let other : BoundJob := ⟨plateShot 36, 1⟩
    let first : BoundJob := ⟨plateShot 2, 7⟩
    let second : BoundJob := ⟨plateShot 3, 7⟩
    let tasks : List TileTask := [.render first.job, .render other.job, .render first.job]
    let passes := recent 7 (calls (tasks ++ [TileTask.render second.job]))
    Covered passes 0 0 ∧ sampleCount passes < 2 ^ 24 ∧
      ∃ c, ((ofRegion r).performAll (tasks ++ [TileTask.render second.job])).color[0]? = some c ∧
        value? c.w = some 1 := by
  intro r other first second tasks passes
  have hpasses : passes = [first, second] := rfl
  have hcount : sampleCount passes = 5 := rfl
  have hcovered : ∀ x y, Covered passes x y := by
    refine BoundJob.covered_of_backplates fun job hjob => ?_
    rw [hpasses] at hjob
    rcases List.mem_pair.mp hjob with rfl | rfl <;> exact ⟨by decide, rfl⟩
  have hlt : sampleCount passes < 2 ^ 24 := hcount ▸ by decide
  obtain ⟨hsamples, c, hc, hvalue⟩ :=
    performAll_coverage r tasks second (i := 0) (by decide) (hcovered _ _) hlt
  refine ⟨hcovered 0 0, hlt, c, hc, ?_⟩
  rw [hvalue, hsamples]
  exact congrArg some (if_pos (show Recovers 5 by decide))

/-- One pass of 41 samples leaves a pixel that they all cover short of 1. -/
theorem performAll_coverage_missed :
    let r : Region := ⟨0, 0, 1, 1, 0⟩
    let b : BoundJob := ⟨plateShot 41, 1⟩
    let tile := (ofRegion r).performAll [.render b.job]
    b.Covers 0 0 0 ∧ tile.samples = 41 ∧
      ∃ c, tile.color[0]? = some c ∧ c.w ≠ (1.0 : Float32) ∧
        value? c.w = some (1 - 1 / 2 ^ 24) := by
  intro r b tile
  have hcovered : ∀ x y, Covered [b] x y := by
    refine BoundJob.covered_of_backplates fun job hjob => ?_
    rw [List.mem_singleton.mp hjob]
    exact ⟨by decide, rfl⟩
  have htile : tile = ofPasses r [] b := (performAll_follows r []).renderTile b
  obtain ⟨c, hc, hvalue⟩ := @ofPasses_coverage r [] b 0 (by decide) (hcovered _ _) (by decide)
  have hvalue : value? c.w = some (1 - 1 / 2 ^ 24) :=
    hvalue.trans (congrArg some (if_neg (show ¬ Recovers 41 by decide)))
  refine ⟨hcovered 0 0 (b, 0) (by simp), htile ▸ rfl, c, htile ▸ hc, fun hone => ?_, hvalue⟩
  rw [hone, Binary32.value?_one] at hvalue
  norm_num at hvalue

end Tile

end TileTracer
