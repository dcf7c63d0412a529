import TileTracer.Render.Job

namespace TileTracer

open TileTracer.Random (Stream)

/-- What the samples of a frame are traced with. -/
structure Shot where
  settings : Settings
  world : World
  camera : Camera
  width : Nat
  height : Nat

structure BoundJob extends Shot where
  generation : Nat

namespace Shot

def inCommit (s : Shot) (generation : Nat) : Job where
  context := { settings := s.settings, world := some s.world, camera := some s.camera }
  generation := generation
  width := s.width
  height := s.height

def samplePixel (s : Shot) (x y : Nat) (rng : Stream) : Path :=
  (s.inCommit 0).samplePixel s.world s.camera x y rng

/-- Some samples of a pixel, each from the random numbers that the one before it has left. -/
def samplePaths (s : Shot) (x y : Nat) : Nat → Stream → List Path
  | 0, _ => []
  | n + 1, rng =>
    let path := s.samplePixel x y rng
    path :: s.samplePaths x y n path.rng

def samples (s : Shot) : Nat := max s.settings.samplesPerPixel.toNat 1

end Shot

/-- The light and the coverage of the samples, summed in order. -/
def Path.sumFrom (sum : Vec4 Float32) (paths : List Path) : Vec4 Float32 :=
  paths.foldl (fun sum path => sum + path.sample.radiance.extend path.sample.alpha) sum

def PixelRecord.ofPaths (paths : List Path) : PixelRecord :=
  let first := (paths.head?.map (·.sample.first)).getD .miss
  { sum := Path.sumFrom .zero paths
    depth := first.depth, albedo := first.albedo, normal := first.normal }

/-- What a pass of a number finds for the pixel at a place of the image. -/
def Shot.find (s : Shot) (pass x y : Nat) : PixelRecord :=
  let rng := Stream.ofSeed (pixelSeed x.toUInt32 y.toUInt32 pass.toUInt32)
  .ofPaths (s.samplePaths x y s.samples rng)

namespace Shot

variable (s : Shot) (generation x y : Nat)

theorem samples_pos : 0 < s.samples :=
  Nat.lt_of_lt_of_le Nat.one_pos (Nat.le_max_right _ _)

theorem samplePixel_inCommit (rng : Stream) :
    (s.inCommit generation).samplePixel s.world s.camera x y rng = s.samplePixel x y rng := by
  simp only [samplePixel, Job.samplePixel, inCommit]

theorem addSamples_sum (n : Nat) (p : PixelSum) :
    ((s.inCommit generation).addSamples s.world s.camera x y n p).sum =
      Path.sumFrom p.sum (s.samplePaths x y n p.rng) := by
  induction n generalizing p with
  | zero => rfl
  | succ n ih =>
      rw [Job.addSamples, ih, samplePixel_inCommit]
      rfl

theorem addSamples_first (n : Nat) (p : PixelSum) :
    ((s.inCommit generation).addSamples s.world s.camera x y n p).first = p.first := by
  induction n generalizing p with
  | zero => rfl
  | succ n ih => rw [Job.addSamples, ih]

/-- What a job finds for a pixel does not depend on the commit that it belongs to. -/
theorem renderPixel_inCommit (pass : Nat) :
    (s.inCommit generation).renderPixel s.world s.camera pass x y = s.find pass x y := by
  obtain ⟨n, hn⟩ := Nat.exists_eq_add_one.mpr s.samples_pos
  have hcount : (s.inCommit generation).samples - 1 = n := by
    rw [show (s.inCommit generation).samples = s.samples from rfl, hn, Nat.add_sub_cancel]
  simp only [Job.renderPixel, find, hcount, hn, addSamples_sum, addSamples_first,
    samplePixel_inCommit, PixelRecord.ofPaths, samplePaths, Path.sumFrom, List.foldl_cons,
    List.head?_cons, Option.map_some, Option.getD_some]

end Shot

namespace BoundJob

def job (b : BoundJob) : Job := b.inCommit b.generation

theorem renderTile_job (b : BoundJob) (t : Tile) :
    b.job.renderTile t = b.job.renderBound b.world b.camera t :=
  rfl

end BoundJob

namespace Job

def bound? (job : Job) : Option BoundJob :=
  match job.context.world, job.context.camera with
  | some world, some camera => some {
      settings := job.context.settings, world, camera
      width := job.width, height := job.height, generation := job.generation }
  | _, _ => none

theorem bound?_job (b : BoundJob) : b.job.bound? = some b :=
  rfl

theorem bound?_eq_some {job : Job} {b : BoundJob} (h : job.bound? = some b) : b.job = job := by
  obtain ⟨⟨settings, world, camera⟩, generation, width, height⟩ := job
  cases world <;> cases camera <;> cases h
  rfl

theorem renderTile_of_bound?_eq_none {job : Job} (h : job.bound? = none) (t : Tile) :
    job.renderTile t = t := by
  obtain ⟨⟨settings, world, camera⟩, generation, width, height⟩ := job
  cases world <;> cases camera <;> first | rfl | cases h

theorem isBound_iff {job : Job} : job.context.isBound = true ↔ ∃ b : BoundJob, b.job = job := by
  constructor
  · intro h
    obtain ⟨⟨settings, world, camera⟩, generation, width, height⟩ := job
    cases world <;> cases camera <;> cases h
    exact ⟨_, bound?_eq_some rfl⟩
  · rintro ⟨b, rfl⟩
    rfl

end Job

end TileTracer
