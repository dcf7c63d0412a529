import Mathlib.Algebra.GroupWithZero.Nat
import Mathlib.Algebra.Order.BigOperators.Group.List
import Mathlib.Data.List.DropRight
import TileTracer.Proofs.CheckedPasses
import TileTracer.Proofs.PixelSamples
import TileTracer.Proofs.TilePasses

namespace TileTracer

inductive TileTask where
  | render (job : Job)
  | reset

namespace TileTask

def isRender : TileTask → Bool
  | render _ => true
  | reset => false

/-- The bound job that the task renders, if it renders one. -/
def call? : TileTask → Option BoundJob
  | render job => job.bound?
  | reset => none

/-- The bound calls since the last reset. -/
def calls (tasks : List TileTask) : List BoundJob :=
  (tasks.rtakeWhile isRender).filterMap call?

/-- The longest run of calls of a commit at the end of some calls. -/
def recent (generation : Nat) (history : List BoundJob) : List BoundJob :=
  history.rtakeWhile (·.generation = generation)

theorem calls_concat_reset (tasks : List TileTask) : calls (tasks ++ [reset]) = [] := by
  rw [calls, List.rtakeWhile_concat_neg _ _ _ (by simp [isRender]), List.filterMap_nil]

theorem calls_concat_render (tasks : List TileTask) (job : Job) :
    calls (tasks ++ [render job]) = calls tasks ++ job.bound?.toList := by
  rw [calls, List.rtakeWhile_concat_pos _ _ _ rfl, List.filterMap_append]
  rcases h : job.bound? with _ | b <;> simp [calls, call?, h]

theorem calls_map_render (jobs : List BoundJob) :
    calls (jobs.map fun b => render b.job) = jobs := by
  induction jobs using List.reverseRecOn with
  | nil => rfl
  | append_singleton jobs b ih =>
      rw [List.map_append, List.map_singleton, calls_concat_render, ih, Job.bound?_job]
      rfl

def allCalls (tasks : List TileTask) : List BoundJob := tasks.filterMap call?

theorem allCalls_map_render (jobs : List BoundJob) :
    allCalls (jobs.map fun b => render b.job) = jobs := by
  rw [allCalls, List.filterMap_map]
  exact List.filterMap_some

theorem recent_nil (generation : Nat) : recent generation [] = [] :=
  List.rtakeWhile_nil _

theorem recent_concat_same (history : List BoundJob) (b : BoundJob) :
    recent b.generation (history ++ [b]) = recent b.generation history ++ [b] :=
  List.rtakeWhile_concat_pos _ _ _ (by simp)

theorem recent_concat_other {generation : Nat} {b : BoundJob} (h : generation ≠ b.generation)
    (history : List BoundJob) : recent generation (history ++ [b]) = [] :=
  List.rtakeWhile_concat_neg _ _ _ (by simpa using h.symm)

theorem recent_recent (generation : Nat) (history : List BoundJob) :
    recent generation (recent generation history) = recent generation history :=
  List.rtakeWhile_idempotent _ _

theorem recent_calls_sublist (generation : Nat) (tasks : List TileTask) :
    List.Sublist (recent generation (calls tasks)) (allCalls tasks) :=
  (List.rtakeWhile_suffix _ _).sublist.trans ((List.rtakeWhile_suffix _ _).sublist.filterMap _)

end TileTask

namespace BoundJob

def sampleCount (jobs : List BoundJob) : Nat := (jobs.map (·.samples)).sum

/-- What the passes of some jobs find for a pixel, summed in order; the first pass has the number 0.
-/
def sumOf (jobs : List BoundJob) (x y : Nat) : Vec4 Float32 :=
  jobs.zipIdx.foldl (fun sum (b, pass) => sum + (b.find pass x y).sum) .zero

theorem sampleCount_concat (jobs : List BoundJob) (b : BoundJob) :
    sampleCount (jobs ++ [b]) = sampleCount jobs + b.samples := by
  simp [sampleCount]

theorem sampleCount_le_of_sublist {jobs others : List BoundJob} (h : List.Sublist jobs others) :
    sampleCount jobs ≤ sampleCount others :=
  (h.map _).sum_le_sum fun _ _ => Nat.zero_le _

theorem sumOf_concat (jobs : List BoundJob) (b : BoundJob) (x y : Nat) :
    sumOf (jobs ++ [b]) x y = sumOf jobs x y + (b.find jobs.length x y).sum := by
  simp [sumOf, List.zipIdx_append]

end BoundJob

namespace Tile

open TileTask (recent calls allCalls)
open BoundJob (sampleCount sumOf)

def perform (t : Tile) : TileTask → Tile
  | .render job => job.renderTile t
  | .reset => t.reset

def performAll (t : Tile) (tasks : List TileTask) : Tile := tasks.foldl perform t

def perform? (t : Tile) : TileTask → Option Tile
  | .render job => job.renderTile? t
  | .reset => some t.reset

def performAll? (t : Tile) (tasks : List TileTask) : Option Tile := tasks.foldlM perform? t

/-- The tile that the passes of some jobs leave, the last of which is `last`: the average of all
their samples, and beside it what the last pass met first. -/
def ofPasses (r : Region) (before : List BoundJob) (last : BoundJob) : Tile where
  region := r
  color := r.gather fun x y =>
    sumOf (before ++ [last]) x y * (1.0 / Binary32.ofNat (sampleCount (before ++ [last])))
  depth := r.gather fun x y => (last.find before.length x y).depth
  albedo := r.gather fun x y => (last.find before.length x y).albedo
  normal := r.gather fun x y => (last.find before.length x y).normal
  sums := r.gather (sumOf (before ++ [last]))
  samples := sampleCount (before ++ [last])
  passes := (before ++ [last]).length
  generation := last.generation

/-- The tile has counted the passes of some jobs and nothing else. Its outputs may be older. -/
structure Counts (t : Tile) (r : Region) (jobs : List BoundJob) : Prop where
  fits : t.Fits r
  sums : t.sums = r.gather (sumOf jobs)
  samples : t.samples = sampleCount jobs
  passes : t.passes = jobs.length

/-- The tile has counted the latest calls of its own commit, and calls of another commit were not
the latest. -/
structure Follows (t : Tile) (r : Region) (history : List BoundJob) : Prop where
  counts : t.Counts r (recent t.generation history)
  others : ∀ generation, generation ≠ t.generation → recent generation history = []

variable {t : Tile} {r : Region}

theorem ofRegion_counts (r : Region) : (ofRegion r).Counts r [] where
  fits := ofRegion_fits r
  sums := (r.gather_const _).symm
  samples := rfl
  passes := rfl

theorem Fits.reset_counts (h : t.Fits r) : t.reset.Counts r [] where
  fits := h.reset
  sums := by
    rw [Tile.reset, h.sums]
    exact (r.gather_const _).symm
  samples := rfl
  passes := rfl

theorem ofPasses_counts (r : Region) (before : List BoundJob) (last : BoundJob) :
    (ofPasses r before last).Counts r (before ++ [last]) where
  fits := by constructor <;> simp only [ofPasses, Region.size_gather]
  sums := rfl
  samples := rfl
  passes := rfl

theorem Counts.follows_nil (h : t.Counts r []) : t.Follows r [] where
  counts := by rwa [TileTask.recent_nil]
  others := fun generation _ => TileTask.recent_nil generation

theorem ofPasses_follows (r : Region) (history : List BoundJob) (b : BoundJob) :
    (ofPasses r (recent b.generation history) b).Follows r (history ++ [b]) where
  counts := by
    rw [show (ofPasses r (recent b.generation history) b).generation = b.generation from rfl,
      TileTask.recent_concat_same]
    exact ofPasses_counts r _ b
  others := fun _ h => TileTask.recent_concat_other h history

theorem Follows.beginPass {history : List BoundJob} (h : t.Follows r history) (generation : Nat) :
    (t.beginPass generation).generation = generation ∧
      (t.beginPass generation).Counts r (recent generation history) := by
  unfold Tile.beginPass
  split
  · rename_i hsame
    subst hsame
    exact ⟨rfl, h.counts⟩
  · rename_i hother
    rw [h.others generation (Ne.symm hother)]
    have hreset := h.counts.fits.reset_counts
    exact ⟨rfl, { hreset with fits := { hreset.fits with } }⟩

/-- A pass refreshes every output, so that nothing is left of what was there before. -/
theorem renderBound_of_counts {before : List BoundJob} {b : BoundJob}
    (hgeneration : (t.beginPass b.generation).generation = b.generation)
    (h : (t.beginPass b.generation).Counts r before) :
    b.job.renderBound b.world b.camera t = ofPasses r before b := by
  have hpositive : sampleCount before + b.samples ≠ 0 :=
    Nat.ne_of_gt (Nat.add_pos_right _ b.samples_pos)
  have hsums : (fun x y => sumOf before x y + (b.find before.length x y).sum) =
      sumOf (before ++ [b]) := by
    funext x y
    rw [BoundJob.sumOf_concat]
  have hpixels := b.job.foldl_renderInto_gather b.world b.camera h.fits h.sums
  simp only [h.passes, BoundJob.job, b.toShot.renderPixel_inCommit, hsums] at hpixels
  unfold Job.renderBound
  rw [show b.job.generation = b.generation from rfl]
  dsimp only
  rw [h.fits.region]
  refine (congrArg (Tile.endPass · b.samples) hpixels).trans ?_
  simp only [Tile.endPass, h.samples, h.fits.region, hgeneration, if_neg hpositive, ofPasses,
    Region.map_gather, BoundJob.sampleCount_concat, List.length_append, List.length_singleton]

theorem Follows.renderTile {history : List BoundJob} (h : t.Follows r history) (b : BoundJob) :
    b.job.renderTile t = ofPasses r (recent b.generation history) b := by
  obtain ⟨hgeneration, hcounts⟩ := h.beginPass b.generation
  rw [b.renderTile_job]
  exact renderBound_of_counts hgeneration hcounts

theorem performAll_concat (t : Tile) (tasks : List TileTask) (task : TileTask) :
    t.performAll (tasks ++ [task]) = (t.performAll tasks).perform task := by
  rw [performAll, List.foldl_concat]
  rfl

theorem Follows.perform {tasks : List TileTask} (h : t.Follows r (calls tasks)) (task : TileTask) :
    (t.perform task).Follows r (calls (tasks ++ [task])) := by
  cases task with
  | reset =>
      rw [TileTask.calls_concat_reset]
      exact h.counts.fits.reset_counts.follows_nil
  | render job =>
      rw [TileTask.calls_concat_render, Tile.perform]
      cases hbound : job.bound? with
      | none =>
          rw [Job.renderTile_of_bound?_eq_none hbound, Option.toList_none, List.append_nil]
          exact h
      | some b =>
          rw [← Job.bound?_eq_some hbound, h.renderTile b]
          exact ofPasses_follows r (calls tasks) b

theorem performAll_follows (r : Region) (tasks : List TileTask) :
    ((ofRegion r).performAll tasks).Follows r (calls tasks) := by
  induction tasks using List.reverseRecOn with
  | nil => exact (ofRegion_counts r).follows_nil
  | append_singleton tasks task ih =>
      rw [performAll_concat]
      exact ih.perform task

theorem Fits.perform (ht : t.Fits r) (task : TileTask) : (t.perform task).Fits r := by
  cases task with
  | render job => exact job.renderTile_fits ht
  | reset => exact ht.reset

theorem Fits.performAll?_eq (hr : r.FitsWords) (ht : t.Fits r) {tasks : List TileTask}
    (h : ∀ done, done <+: tasks → (t.performAll done).CountersFit) :
    t.performAll? tasks = some (t.performAll tasks) := by
  refine foldlM_of_prefixes (I := fun t : Tile => t.Fits r) ?_ ?_ ht h
  · intro t task ht hcounters
    cases task with
    | render job => exact job.renderTile?_eq hr ht hcounters
    | reset => rfl
  · exact fun t task ht => ht.perform task

/-- The hypothesis of `Fits.performAll?_eq` asks for no more than is needed. -/
theorem Fits.performAll?_isSome_iff (hr : r.FitsWords) (ht : t.Fits r) (hcounters : t.CountersFit)
    {tasks : List TileTask} :
    (t.performAll? tasks).isSome = true ↔
      ∀ done, done <+: tasks → (t.performAll done).CountersFit := by
  refine foldlM_isSome_iff (I := fun t : Tile => t.Fits r) ?_ ?_ ht hcounters
  · intro t task ht hcounters
    cases task with
    | render job => exact job.renderTile?_cases hr ht hcounters
    | reset => exact .inl ⟨t.reset_countersFit, rfl⟩
  · exact fun t task ht => ht.perform task

theorem countersFit_of_allCalls (r : Region) {tasks : List TileTask}
    (hsamples : sampleCount (allCalls tasks) < 2 ^ 32) (hlength : (allCalls tasks).length < 2 ^ 32)
    (done : List TileTask) (hdone : done <+: tasks) :
    ((ofRegion r).performAll done).CountersFit := by
  have hcounts := (performAll_follows r done).counts
  have hsublist := (TileTask.recent_calls_sublist ((ofRegion r).performAll done).generation
    done).trans (hdone.sublist.filterMap _)
  constructor
  · rw [hcounts.samples]
    exact Nat.lt_of_le_of_lt (BoundJob.sampleCount_le_of_sublist hsublist) hsamples
  · rw [hcounts.passes]
    exact Nat.lt_of_le_of_lt hsublist.length_le hlength

/-- Whatever was done to a tile of a region whose pixels have words for places, as long as its
counters are words: a call that is bound leaves it as the latest unbroken run of calls of its commit
alone would leave a new tile. -/
theorem performAll_eq_recent {r : Region} (hr : r.FitsWords) {tasks : List TileTask} {job : Job}
    (hbound : job.context.isBound = true)
    (hcounters : ∀ done, done <+: tasks ++ [.render job] →
      ((ofRegion r).performAll done).CountersFit) :
    ∃ (start : Tile) (before : List BoundJob) (last : BoundJob),
      ofRegion? r = some start ∧ start = ofRegion r ∧ last.job = job ∧
      recent job.generation (calls (tasks ++ [.render job])) = before ++ [last] ∧
      start.performAll? (tasks ++ [.render job]) = some (ofPasses r before last) ∧
      start.performAll (tasks ++ [.render job]) = ofPasses r before last ∧
      start.performAll? ((before ++ [last]).map fun b => .render b.job) =
        some (ofPasses r before last) ∧
      start.performAll ((before ++ [last]).map fun b => .render b.job) =
        ofPasses r before last := by
  obtain ⟨last, rfl⟩ := Job.isBound_iff.mp hbound
  have hrun : (ofRegion r).performAll (tasks ++ [.render last.job]) =
      ofPasses r (recent last.generation (calls tasks)) last := by
    rw [performAll_concat]
    exact (performAll_follows r tasks).renderTile last
  have halone : (ofRegion r).performAll
      ((recent last.generation (calls tasks) ++ [last]).map fun b => .render b.job) =
      ofPasses r (recent last.generation (calls tasks)) last := by
    have hcalls := performAll_follows r
      ((recent last.generation (calls tasks)).map fun b => .render b.job)
    rw [TileTask.calls_map_render] at hcalls
    rw [List.map_append, List.map_singleton, performAll_concat]
    exact (hcalls.renderTile last).trans (by rw [TileTask.recent_recent])
  have hlast := hcounters _ (List.prefix_refl _)
  rw [hrun] at hlast
  have hfits := ofRegion_fits r
  refine ⟨_, recent last.generation (calls tasks), last, ofRegion?_eq hr.toSizeFits, rfl, rfl, ?_,
    ?_, hrun, ?_, halone⟩
  · rw [TileTask.calls_concat_render]
    exact TileTask.recent_concat_same (calls tasks) last
  · rw [hfits.performAll?_eq hr hcounters, hrun]
  · rw [hfits.performAll?_eq hr, halone]
    apply countersFit_of_allCalls
    · rw [TileTask.allCalls_map_render]
      exact hlast.samples
    · rw [TileTask.allCalls_map_render]
      exact hlast.passes

theorem performAll_eq_recent_two_commits :
    ∃ first second unbound : Job,
      first.context.isBound = true ∧ second.context.isBound = true ∧
      unbound.context.isBound = false ∧ first.generation = 1 ∧ second.generation = 2 ∧
      (⟨4, 0, 3, 2, 1⟩ : Region).FitsWords ∧
      ∃ start before last, ofRegion? ⟨4, 0, 3, 2, 1⟩ = some start ∧ before.length = 1 ∧
        last.job = second ∧
        start.performAll?
            [.render second, .reset, .render second, .render first, .render second,
              .render unbound, .render second] =
          some (ofPasses ⟨4, 0, 3, 2, 1⟩ before last) := by
  let shot : Shot := ⟨.default, (World.commit .empty).2, .default, 7, 2⟩
  let unbound : Job := ⟨⟨.default, none, some .default⟩, 2, 7, 2⟩
  let tasks : List TileTask :=
    [.render (shot.inCommit 2), .reset, .render (shot.inCommit 2), .render (shot.inCommit 1),
      .render (shot.inCommit 2), .render unbound]
  have hr : (⟨4, 0, 3, 2, 1⟩ : Region).FitsWords := by
    refine ⟨?_, by decide, by decide⟩
    constructor <;> decide
  have hcounters : ∀ done, done <+: tasks ++ [.render (shot.inCommit 2)] →
      ((ofRegion ⟨4, 0, 3, 2, 1⟩).performAll done).CountersFit :=
    countersFit_of_allCalls _ (by decide) (by decide)
  obtain ⟨start, before, last, hstart, -, hlast, hrecent, hrun, -⟩ :=
    performAll_eq_recent hr (show (shot.inCommit 2).context.isBound = true from rfl) hcounters
  refine ⟨shot.inCommit 1, shot.inCommit 2, unbound, rfl, rfl, rfl, rfl, rfl, hr, start, before, last,
    hstart, ?_, hlast, hrun⟩
  have hlength : 2 = (before ++ [last]).length := congrArg List.length hrecent
  rw [List.length_append, List.length_singleton] at hlength
  exact (Nat.succ.inj hlength).symm

end Tile

end TileTracer
