import Mathlib.Logic.Function.Iterate
import TileTracer.Proofs.CommittedHits
import TileTracer.Proofs.PixelSamples
import TileTracer.Proofs.TilePasses

/-!
Depth, albedo and normal of a pixel come from the first segment of the first sample of a pass. They
depend on where surfaces and media are and on the base colors of the surfaces. How surfaces scatter
and emit, how long and how many the paths are and what lies behind the scene leave no trace in them.
-/

namespace TileTracer

open TileTracer.Random (Stream)

/-! ## Surfaces of any kind -/

/-- All that a path asks of a material. -/
structure Finish where
  albedo : Color
  emitted : Hit Float32 → Color
  scatter : Ray Float32 → Hit Float32 → Stream → Option Scatter × Stream

def Material.finish (m : Material) : Finish := ⟨m.albedo, m.emitted, m.scatter⟩

/-- The finishes of the instances by their positions, with that of the fallback everywhere else. -/
def World.finish (w : World) (owner : Nat) : Finish :=
  ((w.material? owner).getD fallbackMaterial).finish

def Segment.path : Segment → Path
  | ended p => p
  | onward p => p

namespace Path

variable (settings : Settings) (world : World) (finishes : Nat → Finish) (screen : Vec2 Float32)

def meetFinish (finish : Finish) (isFirst : Bool) (p : Path) (hit : Hit Float32) : Segment :=
  let p := p.note isFirst ⟨hit.t * p.ray.direction.length, finish.albedo, hit.normal⟩
  let p := p.gather (finish.emitted hit)
  match finish.scatter p.ray hit p.rng with
  | (none, rng) => .ended { p with rng }
  | (some s, rng) =>
    { p with rng }.continued settings s.attenuation fun p => (⟨hit.point, s.direction⟩, p.rng)

/-- As `segment`, with any finishes on the surfaces of the world. -/
def segmentIn (isFirst : Bool) (p : Path) : Segment :=
  let w := Window.startingAt settings.epsilon
  let surface := world.trace p.ray w
  let near := (surface.map (·.t)).getD Scalar.infinity
  match mediumEvent world p.ray (w.upTo near) p.rng with
  | (some (t, medium), rng) => scatterInMedium settings isFirst { p with rng } t medium
  | (none, rng) =>
    let p := { p with rng }
    match surface with
    | none => .ended (p.escape settings screen isFirst)
    | some hit => p.meetFinish settings (finishes hit.owner) isFirst hit

def followIn (settings : Settings) (world : World) (finishes : Nat → Finish)
    (screen : Vec2 Float32) : Nat → Bool → Path → Path
  | 0, _, p => p
  | n + 1, isFirst, p => match p.segmentIn settings world finishes screen isFirst with
    | .ended p => p
    | .onward p => followIn settings world finishes screen n false p

def traceIn (ray : Ray Float32) (rng : Stream) : Path :=
  followIn settings world finishes screen settings.maxDepth.toNat true (start ray rng)

theorem segmentIn_finish (isFirst : Bool) (p : Path) :
    p.segmentIn settings world world.finish screen isFirst =
      p.segment settings world screen isFirst := by
  unfold segmentIn segment
  rfl

theorem followIn_finish (n : Nat) (isFirst : Bool) (p : Path) :
    p.followIn settings world world.finish screen n isFirst =
      p.follow settings world screen n isFirst := by
  induction n generalizing isFirst p with
  | zero => rfl
  | succ n ih =>
      rw [followIn, follow, segmentIn_finish]
      cases p.segment settings world screen isFirst with
      | ended p => rfl
      | onward p => exact ih false p

theorem traceIn_finish (ray : Ray Float32) (rng : Stream) :
    traceIn settings world world.finish screen ray rng = trace settings world screen ray rng :=
  followIn_finish settings world screen _ true (start ray rng)

/-! ## The first segment -/

/-- What a path meets first, where surfaces have base colors and nothing else. -/
def firstMet (epsilon : Float32) (world : World) (albedo : Nat → Color) (ray : Ray Float32)
    (rng : Stream) : FirstHit :=
  let w := Window.startingAt epsilon
  let surface := world.trace ray w
  let near := (surface.map (·.t)).getD Scalar.infinity
  match (mediumEvent world ray (w.upTo near) rng).1, surface with
  | some (t, medium), _ =>
    let speed := ray.direction.length
    ⟨t * speed, medium.albedo, -ray.direction / speed⟩
  | none, none => .miss
  | none, some hit => ⟨hit.t * ray.direction.length, albedo hit.owner, hit.normal⟩

variable {settings world finishes screen}

theorem continued_sample (p : Path) (attenuation : Color) (ray : Path → Ray Float32 × Stream) :
    (p.continued settings attenuation ray).path.sample = p.sample := by
  unfold continued
  dsimp only
  split <;> rfl

theorem note_first (p : Path) (isFirst : Bool) (hit : FirstHit) :
    (p.note isFirst hit).sample.first = if isFirst then hit else p.sample.first := by
  cases isFirst <;> rfl

theorem escape_first (p : Path) (isFirst : Bool) :
    (p.escape settings screen isFirst).sample.first = p.sample.first := by
  unfold escape
  split <;> rfl

theorem scatterInMedium_first (isFirst : Bool) (p : Path) (t : Float32) (medium : Medium) :
    (scatterInMedium settings isFirst p t medium).path.sample.first =
      if isFirst then
        ⟨t * p.ray.direction.length, medium.albedo, -p.ray.direction / p.ray.direction.length⟩
      else p.sample.first := by
  unfold scatterInMedium
  rw [continued_sample, note_first]

theorem meetFinish_first (finish : Finish) (isFirst : Bool) (p : Path) (hit : Hit Float32) :
    (p.meetFinish settings finish isFirst hit).path.sample.first =
      if isFirst then ⟨hit.t * p.ray.direction.length, finish.albedo, hit.normal⟩
      else p.sample.first := by
  rw [← note_first]
  unfold meetFinish
  dsimp only
  split
  · rfl
  · rw [continued_sample]
    rfl

/-- The first segment notes what it meets, and the others keep that. -/
theorem segmentIn_first (isFirst : Bool) (p : Path)
    (hstart : isFirst = true → p.sample.first = .miss) :
    (p.segmentIn settings world finishes screen isFirst).path.sample.first =
      if isFirst then
        firstMet settings.epsilon world (fun owner => (finishes owner).albedo) p.ray p.rng
      else p.sample.first := by
  unfold segmentIn firstMet
  dsimp only
  rcases mediumEvent world p.ray _ p.rng with ⟨_ | ⟨t, medium⟩, rng⟩
  · cases world.trace p.ray (.startingAt settings.epsilon) with
    | none =>
        change (escape settings screen isFirst _).sample.first = _
        rw [escape_first]
        cases isFirst with
        | false => rfl
        | true => exact hstart rfl
    | some hit => exact meetFinish_first _ _ _ _
  · exact scatterInMedium_first _ _ _ _

theorem followIn_first_of_later (n : Nat) (p : Path) :
    (p.followIn settings world finishes screen n false).sample.first = p.sample.first := by
  induction n generalizing p with
  | zero => rfl
  | succ n ih =>
      have hsegment := @segmentIn_first settings world finishes screen false p nofun
      rw [followIn]
      revert hsegment
      cases p.segmentIn settings world finishes screen false with
      | ended q => exact id
      | onward q => exact (ih q).trans

theorem traceIn_first (hdepth : 0 < settings.maxDepth) (ray : Ray Float32) (rng : Stream) :
    (traceIn settings world finishes screen ray rng).sample.first =
      firstMet settings.epsilon world (fun owner => (finishes owner).albedo) ray rng := by
  obtain ⟨n, hn⟩ := Nat.exists_eq_add_one.mpr (UInt32.lt_iff_toNat_lt.mp hdepth)
  have hsegment := @segmentIn_first settings world finishes screen true (start ray rng) fun _ => rfl
  rw [traceIn, hn, followIn]
  revert hsegment
  cases (start ray rng).segmentIn settings world finishes screen true with
  | ended q => exact id
  | onward q => exact (followIn_first_of_later n q).trans

end Path

/-! ## Worlds that differ in their materials -/

namespace Instance

def bare (i : Instance) : Instance where
  name := ""
  transform := i.transform
  content := match i.content with
    | .geometry shape _ => .geometry shape none
    | .volume medium => .volume medium

def albedo (i : Instance) : Color := (i.material?.getD fallbackMaterial).albedo

theorem bare_isVolume (i : Instance) : i.bare.isVolume = i.isVolume := by
  obtain ⟨name, transform, content⟩ := i
  cases content <;> rfl

theorem bare_isGeometry (i : Instance) : i.bare.isGeometry = i.isGeometry := by
  rw [isGeometry, isGeometry, bare_isVolume]

theorem bare_medium? (i : Instance) : i.bare.medium? = i.medium? := by
  obtain ⟨name, transform, content⟩ := i
  cases content <;> rfl

theorem bare_primitives (i : Instance) (owner : Nat) :
    i.bare.primitives owner = i.primitives owner := by
  obtain ⟨name, transform, content⟩ := i
  cases content <;> rfl

end Instance

namespace Scene

variable {keep : Instance → Bool} (hkeep : ∀ i : Instance, keep i.bare = keep i)
  {list₁ list₂ : List Instance} (hbare : list₁.map Instance.bare = list₂.map Instance.bare)

include hkeep hbare

theorem Flattened.eq_of_bare_eq {ps₁ ps₂ : List (Primitive Float32)}
    (h₁ : Flattened keep list₁ ps₁) (h₂ : Flattened keep list₂ ps₂) : ps₁ = ps₂ := by
  obtain ⟨blocks₁, rfl, hlength₁, hblocks₁⟩ := h₁
  obtain ⟨blocks₂, rfl, hlength₂, hblocks₂⟩ := h₂
  have hlength : list₁.length = list₂.length := by simpa using congrArg List.length hbare
  congr 1
  apply List.ext_getElem (by omega)
  intro n hn₁ hn₂
  have hsame : list₁[n].bare = list₂[n].bare := by
    have hget := congrArg (·[n]?) hbare
    rw [List.getElem?_map, List.getElem?_map, List.getElem?_eq_getElem (hlength₁ ▸ hn₁),
      List.getElem?_eq_getElem (hlength₂ ▸ hn₂)] at hget
    exact Option.some.inj hget
  obtain ⟨hkept₁, hdropped₁⟩ := hblocks₁ n list₁[n] blocks₁[n] (List.getElem?_eq_getElem _)
    (List.getElem?_eq_getElem _)
  obtain ⟨hkept₂, hdropped₂⟩ := hblocks₂ n list₂[n] blocks₂[n] (List.getElem?_eq_getElem _)
    (List.getElem?_eq_getElem _)
  rw [← hkeep, hsame, hkeep] at hkept₁ hdropped₁
  cases hk : keep list₂[n] with
  | false => rw [hdropped₁ hk, hdropped₂ hk]
  | true =>
      have hprimitives := (hkept₁ hk).1
      rw [← Instance.bare_primitives, hsame, Instance.bare_primitives, (hkept₂ hk).1] at hprimitives
      exact (Option.some.inj hprimitives).symm

theorem tree_eq_of_bare_eq {tree₁ tree₂ : BoxTree Float32}
    (h₁ : ∃ ps, Flattened keep list₁ ps ∧ BoxTree.ofList? ps = some tree₁)
    (h₂ : ∃ ps, Flattened keep list₂ ps ∧ BoxTree.ofList? ps = some tree₂) : tree₁ = tree₂ := by
  obtain ⟨ps₁, hflat₁, htree₁⟩ := h₁
  obtain ⟨ps₂, hflat₂, htree₂⟩ := h₂
  cases Flattened.eq_of_bare_eq hkeep hbare hflat₁ hflat₂
  exact Option.some.inj (htree₁.symm.trans htree₂)

end Scene

namespace World

def geometry (w : World) : BoxTree Float32 := (w.scene.map (·.geometry)).getD .empty

def volumes (w : World) : BoxTree Float32 := (w.scene.map (·.volumes)).getD .empty

theorem trace_eq (w : World) (ray : Ray Float32) (window : Window Float32) :
    w.trace ray window = w.geometry.intersect ray window := by
  unfold trace geometry
  cases w.scene <;> rfl

theorem traceVolume_eq (w : World) (ray : Ray Float32) (window : Window Float32) :
    w.traceVolume ray window = w.volumes.intersect ray window := by
  unfold traceVolume volumes
  cases w.scene <;> rfl

theorem medium?_eq_instances (w : World) (owner : Nat) :
    w.medium? owner = w.instances[owner]? >>= Instance.medium? := by
  unfold medium? WorldOf.instances
  cases w.scene <;> rfl

theorem medium?_eq (w : World) (owner : Nat) :
    w.medium? owner = (w.instances.map Instance.bare)[owner]? >>= Instance.medium? := by
  rw [medium?_eq_instances, List.getElem?_map]
  cases w.instances[owner]? with
  | none => rfl
  | some i => exact i.bare_medium?.symm

theorem finish_albedo (w : World) (owner : Nat) :
    (w.finish owner).albedo =
      ((w.instances.map Instance.albedo)[owner]?).getD fallbackMaterial.albedo := by
  have hinstances : w.material? owner = w.instances[owner]? >>= Instance.material? := by
    unfold material? WorldOf.instances
    cases w.scene <;> rfl
  rw [finish, hinstances, List.getElem?_map]
  cases w.instances[owner]? <;> rfl

variable {policy₁ policy₂ : BuildPolicy} {commands₁ commands₂ : List WorldCommand} {w₁ w₂ : World}

theorem trees_of_run {policy : BuildPolicy} {commands : List WorldCommand} {w : World}
    (hrun : run (.withPolicy policy) commands = w) :
    (∃ ps, Scene.Flattened Instance.isGeometry w.instances ps ∧
      BoxTree.ofList? ps = some w.geometry) ∧
    ∃ ps, Scene.Flattened Instance.isVolume w.instances ps ∧
      BoxTree.ofList? ps = some w.volumes := by
  cases hscene : w.scene with
  | some scene =>
      have hderived := derived_of_run hrun hscene
      rw [geometry, volumes, hscene]
      exact ⟨hderived.geometry, hderived.volumes⟩
  | none =>
      rw [(Blank.of_scene hscene).instances, geometry, volumes, hscene]
      have hnothing (keep : Instance → Bool) : Scene.Flattened keep [] [] :=
        ⟨[], rfl, rfl, nofun⟩
      exact ⟨⟨[], hnothing _, rfl⟩, [], hnothing _, rfl⟩

theorem firstMet_eq_of_bare_eq (hrun₁ : run (.withPolicy policy₁) commands₁ = w₁)
    (hrun₂ : run (.withPolicy policy₂) commands₂ = w₂)
    (hbare : w₁.instances.map Instance.bare = w₂.instances.map Instance.bare) (epsilon : Float32)
    (albedo : Nat → Color) (ray : Ray Float32) (rng : Stream) :
    Path.firstMet epsilon w₁ albedo ray rng = Path.firstMet epsilon w₂ albedo ray rng := by
  obtain ⟨hgeometry₁, hvolumes₁⟩ := trees_of_run hrun₁
  obtain ⟨hgeometry₂, hvolumes₂⟩ := trees_of_run hrun₂
  have hgeometry : w₁.geometry = w₂.geometry :=
    Scene.tree_eq_of_bare_eq Instance.bare_isGeometry hbare hgeometry₁ hgeometry₂
  have hvolumes : w₁.volumes = w₂.volumes :=
    Scene.tree_eq_of_bare_eq Instance.bare_isVolume hbare hvolumes₁ hvolumes₂
  simp only [Path.firstMet, Path.mediumEvent, trace_eq, traceVolume_eq, medium?_eq, hbare,
    hgeometry, hvolumes]

end World

/-! ## The first sample of a pixel -/

def PixelRecord.first (p : PixelRecord) : FirstHit := ⟨p.depth, p.albedo, p.normal⟩

/-- Paths one after the other, each from the random numbers that the one before it has left. -/
def Path.successive (sample : Stream → Path) : Nat → Stream → List Path
  | 0, _ => []
  | n + 1, rng =>
    let path := sample rng
    path :: successive sample n path.rng

/-- Where a path starts: a point of the screen, a ray through it and the random numbers left. -/
structure Aim where
  screen : Vec2 Float32
  ray : Ray Float32
  rng : Stream

namespace Shot

variable (s : Shot) (finishes : Nat → Finish) (pass x y : Nat)

def aim (rng : Stream) : Aim :=
  let (a, rng) := rng.unit
  let (b, rng) := rng.unit
  let screen : Vec2 Float32 :=
    ⟨(Binary32.ofNat x + a) * (1.0 / Binary32.ofNat s.width),
     (Binary32.ofNat y + b) * (1.0 / Binary32.ofNat s.height)⟩
  let (u, rng) := rng.unit
  let (v, rng) := rng.unit
  ⟨screen, s.camera.primaryRay screen ⟨u, v⟩, rng⟩

def samplePixelIn (rng : Stream) : Path :=
  let a := s.aim x y rng
  .traceIn s.settings s.world finishes a.screen a.ray a.rng

def findIn : PixelRecord :=
  let rng := Stream.ofSeed (pixelSeed x.toUInt32 y.toUInt32 pass.toUInt32)
  .ofPaths (Path.successive (s.samplePixelIn finishes x y) s.samples rng)

/-- What the first sample of a pixel meets first. -/
def firstMet (albedo : Nat → Color) : FirstHit :=
  let a := s.aim x y (.ofSeed (pixelSeed x.toUInt32 y.toUInt32 pass.toUInt32))
  Path.firstMet s.settings.epsilon s.world albedo a.ray a.rng

theorem samplePixelIn_finish :
    s.samplePixelIn s.world.finish x y = s.samplePixel x y := by
  funext rng
  exact Path.traceIn_finish _ _ _ _ _

theorem samplePaths_eq_successive (n : Nat) (rng : Stream) :
    s.samplePaths x y n rng = Path.successive (s.samplePixel x y) n rng := by
  induction n generalizing rng with
  | zero => rfl
  | succ n ih => rw [samplePaths, Path.successive, ih]

theorem findIn_finish : s.findIn s.world.finish pass x y = s.find pass x y := by
  rw [findIn, find, samplePixelIn_finish, samplePaths_eq_successive]

theorem findIn_first (hdepth : 0 < s.settings.maxDepth) :
    (s.findIn finishes pass x y).first =
      s.firstMet pass x y fun owner => (finishes owner).albedo := by
  obtain ⟨n, hn⟩ := Nat.exists_eq_add_one.mpr s.samples_pos
  rw [findIn, hn]
  exact Path.traceIn_first hdepth _ _

end Shot

/-! ## Passes over a tile -/

namespace Tile

/-- One pass over a tile, with what is found by the number of the pass and the place of the pixel.
-/
def passOf (find : Nat → Nat → Nat → PixelRecord) (generation samples : Nat) (tile : Tile) : Tile :=
  let tile := tile.beginPass generation
  let tile := (List.range tile.region.pixelCount).foldl (fun t i =>
    let r := t.region
    t.record i (find t.passes (r.x + i % r.width) (r.y + i / r.width))) tile
  tile.endPass samples

/-- Two tiles of one region and generation, at the same pass, with the same outputs beside the
color. -/
structure AgreeBesideColor (t₁ t₂ : Tile) : Prop where
  region : t₁.region = t₂.region
  passes : t₁.passes = t₂.passes
  generation : t₁.generation = t₂.generation
  depth : t₁.depth = t₂.depth
  albedo : t₁.albedo = t₂.albedo
  normal : t₁.normal = t₂.normal

namespace AgreeBesideColor

variable {t₁ t₂ : Tile}

theorem refl (t : Tile) : t.AgreeBesideColor t :=
  ⟨rfl, rfl, rfl, rfl, rfl, rfl⟩

theorem beginPass (h : t₁.AgreeBesideColor t₂) (generation : Nat) :
    (t₁.beginPass generation).AgreeBesideColor (t₂.beginPass generation) := by
  unfold Tile.beginPass
  rw [h.generation]
  split
  · exact h
  · exact ⟨h.region, rfl, rfl, h.depth, h.albedo, h.normal⟩

theorem record (h : t₁.AgreeBesideColor t₂) (i : Nat) {p₁ p₂ : PixelRecord}
    (hfirst : p₁.first = p₂.first) : (t₁.record i p₁).AgreeBesideColor (t₂.record i p₂) := by
  obtain ⟨hdepth, halbedo, hnormal⟩ := FirstHit.mk.inj hfirst
  constructor
  · exact h.region
  · exact h.passes
  · exact h.generation
  · exact congrArg₂ (Array.setIfInBounds · i ·) h.depth hdepth
  · exact congrArg₂ (Array.setIfInBounds · i ·) h.albedo halbedo
  · exact congrArg₂ (Array.setIfInBounds · i ·) h.normal hnormal

theorem endPass (h : t₁.AgreeBesideColor t₂) (samples₁ samples₂ : Nat) :
    (t₁.endPass samples₁).AgreeBesideColor (t₂.endPass samples₂) := by
  have hpasses : t₁.passes + 1 = t₂.passes + 1 := congrArg (· + 1) h.passes
  unfold Tile.endPass
  dsimp only
  split <;> split <;> exact ⟨h.region, hpasses, h.generation, h.depth, h.albedo, h.normal⟩

/-- A pass keeps the agreement if it finds the same first hits, from any numbers of samples. -/
theorem passOf {find₁ find₂ : Nat → Nat → Nat → PixelRecord}
    (hfind : ∀ pass x y, (find₁ pass x y).first = (find₂ pass x y).first)
    (h : t₁.AgreeBesideColor t₂) (generation samples₁ samples₂ : Nat) :
    (t₁.passOf find₁ generation samples₁).AgreeBesideColor
      (t₂.passOf find₂ generation samples₂) := by
  have hbegun := h.beginPass generation
  unfold Tile.passOf
  dsimp only
  rw [hbegun.region]
  refine endPass ?_ samples₁ samples₂
  generalize List.range _ = order
  generalize t₁.beginPass generation = u₁ at hbegun ⊢
  generalize t₂.beginPass generation = u₂ at hbegun ⊢
  induction order generalizing u₁ u₂ with
  | nil => exact hbegun
  | cons i order ih =>
      refine ih _ _ (hbegun.record i ?_)
      rw [hbegun.passes, hbegun.region, hfind]

theorem iterate_passOf {find₁ find₂ : Nat → Nat → Nat → PixelRecord}
    (hfind : ∀ pass x y, (find₁ pass x y).first = (find₂ pass x y).first)
    (h : t₁.AgreeBesideColor t₂) (generation samples₁ samples₂ n : Nat) :
    ((Tile.passOf find₁ generation samples₁)^[n] t₁).AgreeBesideColor
      ((Tile.passOf find₂ generation samples₂)^[n] t₂) := by
  induction n generalizing t₁ t₂ with
  | zero => exact h
  | succ n ih => exact ih (h.passOf hfind generation samples₁ samples₂)

end AgreeBesideColor

end Tile

namespace BoundJob

def renderTileIn (b : BoundJob) (finishes : Nat → Finish) (tile : Tile) : Tile :=
  tile.passOf (b.findIn finishes) b.generation b.samples

theorem renderTileIn_finish (b : BoundJob) :
    b.renderTileIn b.world.finish = b.job.renderTile := by
  funext tile
  have hfind : b.findIn b.world.finish = b.job.renderPixel b.world b.camera := by
    funext pass x y
    rw [b.findIn_finish, job, b.renderPixel_inCommit]
  rw [renderTileIn, hfind]
  rfl

theorem iterate_renderTile (b : BoundJob) (region : Region) (n : Nat) :
    b.job.renderTile^[n] (.ofRegion region) = b.job.tileAfter b.world b.camera region n := by
  induction n with
  | zero => exact (b.job.tileAfter_zero b.world b.camera region).symm
  | succ n ih =>
      rw [Function.iterate_succ_apply', ih]
      exact b.job.renderBound_tileAfter b.world b.camera region n

theorem renderPixel_first (b : BoundJob) (hdepth : 0 < b.settings.maxDepth) (pass x y : Nat) :
    (b.job.renderPixel b.world b.camera pass x y).first =
      b.firstMet pass x y fun owner => (b.world.finish owner).albedo := by
  rw [job, b.renderPixel_inCommit, ← b.findIn_finish, b.findIn_first _ _ _ _ hdepth]

/-- Behind the last pass, depth, albedo and normal are what its first samples have met first. -/
theorem iterate_renderTile_first (b : BoundJob) (hdepth : 0 < b.settings.maxDepth)
    (region : Region) (n : Nat) :
    let tile := b.job.renderTile^[n + 1] (.ofRegion region)
    let met x y := b.firstMet n x y fun owner => (b.world.finish owner).albedo
    tile.depth = region.gather (fun x y => (met x y).depth) ∧
      tile.albedo = region.gather (fun x y => (met x y).albedo) ∧
      tile.normal = region.gather (fun x y => (met x y).normal) := by
  intro tile met
  have htile : tile = b.job.tileAfter b.world b.camera region (n + 1) :=
    b.iterate_renderTile region (n + 1)
  have hmet : met = fun x y => (b.job.renderPixel b.world b.camera n x y).first :=
    funext₂ fun x y => (b.renderPixel_first hdepth n x y).symm
  rw [htile, hmet]
  exact ⟨rfl, rfl, rfl⟩

/-- The jobs render one frame of one commit from the same camera, with windows that start alike. -/
structure SameFrame (b₁ b₂ : BoundJob) : Prop where
  camera : b₁.camera = b₂.camera
  epsilon : b₁.settings.epsilon = b₂.settings.epsilon
  width : b₁.width = b₂.width
  height : b₁.height = b₂.height
  generation : b₁.generation = b₂.generation

variable {policy₁ policy₂ : BuildPolicy} {commands₁ commands₂ : List WorldCommand}
  {b₁ b₂ : BoundJob}

theorem SameFrame.firstMet_eq (hframe : b₁.SameFrame b₂)
    (hrun₁ : World.run (.withPolicy policy₁) commands₁ = b₁.world)
    (hrun₂ : World.run (.withPolicy policy₂) commands₂ = b₂.world)
    (hbare : b₁.world.instances.map Instance.bare = b₂.world.instances.map Instance.bare)
    (pass x y : Nat) (albedo : Nat → Color) :
    b₁.firstMet pass x y albedo = b₂.firstMet pass x y albedo := by
  simp only [Shot.firstMet, Shot.aim, hframe.camera, hframe.width, hframe.height, hframe.epsilon,
    World.firstMet_eq_of_bare_eq hrun₁ hrun₂ hbare]

theorem SameFrame.iterate_renderTileIn (hframe : b₁.SameFrame b₂)
    (hrun₁ : World.run (.withPolicy policy₁) commands₁ = b₁.world)
    (hrun₂ : World.run (.withPolicy policy₂) commands₂ = b₂.world)
    (hbare : b₁.world.instances.map Instance.bare = b₂.world.instances.map Instance.bare)
    (hdepth₁ : 0 < b₁.settings.maxDepth) (hdepth₂ : 0 < b₂.settings.maxDepth)
    {finishes₁ finishes₂ : Nat → Finish}
    (halbedo : ∀ owner, (finishes₁ owner).albedo = (finishes₂ owner).albedo)
    (region : Region) (n : Nat) :
    ((b₁.renderTileIn finishes₁)^[n] (.ofRegion region)).AgreeBesideColor
      ((b₂.renderTileIn finishes₂)^[n] (.ofRegion region)) := by
  have hfind (pass x y : Nat) :
      (b₁.findIn finishes₁ pass x y).first = (b₂.findIn finishes₂ pass x y).first := by
    rw [b₁.findIn_first _ _ _ _ hdepth₁, b₂.findIn_first _ _ _ _ hdepth₂, funext halbedo,
      hframe.firstMet_eq hrun₁ hrun₂ hbare]
  unfold renderTileIn
  rw [hframe.generation]
  exact (Tile.AgreeBesideColor.refl _).iterate_passOf hfind _ _ _ n

/-- Two jobs render one frame of worlds with the same shapes and media in the same places, from the
same camera. Whatever their other settings and the materials are, tiles of one region that are
rendered equally often have the same depth, albedo and normals, if surfaces have the same base
colors and paths have a segment: these are what that segment meets in the first sample of the last
pass. The same holds for surfaces of any other kinds. -/
theorem SameFrame.renderTile_agree (hframe : b₁.SameFrame b₂)
    (hrun₁ : World.run (.withPolicy policy₁) commands₁ = b₁.world)
    (hrun₂ : World.run (.withPolicy policy₂) commands₂ = b₂.world)
    (hbare : b₁.world.instances.map Instance.bare = b₂.world.instances.map Instance.bare)
    (hdepth₁ : 0 < b₁.settings.maxDepth) (hdepth₂ : 0 < b₂.settings.maxDepth) :
    (b₁.world.instances.map Instance.albedo = b₂.world.instances.map Instance.albedo →
      ∀ region n, (b₁.job.renderTile^[n] (.ofRegion region)).AgreeBesideColor
        (b₂.job.renderTile^[n] (.ofRegion region))) ∧
    (∀ region n, let tile := b₁.job.renderTile^[n + 1] (.ofRegion region)
      let met x y := b₁.firstMet n x y fun owner => (b₁.world.finish owner).albedo
      tile.depth = region.gather (fun x y => (met x y).depth) ∧
        tile.albedo = region.gather (fun x y => (met x y).albedo) ∧
        tile.normal = region.gather (fun x y => (met x y).normal)) ∧
    ∀ finishes₁ finishes₂ : Nat → Finish,
      (∀ owner, (finishes₁ owner).albedo = (finishes₂ owner).albedo) →
      ∀ region n, ((b₁.renderTileIn finishes₁)^[n] (.ofRegion region)).AgreeBesideColor
        ((b₂.renderTileIn finishes₂)^[n] (.ofRegion region)) := by
  have hall := @iterate_renderTileIn _ _ _ _ _ _ hframe hrun₁ hrun₂ hbare hdepth₁ hdepth₂
  refine ⟨?_, b₁.iterate_renderTile_first hdepth₁, ?_⟩
  · intro halbedo region n
    rw [← b₁.renderTileIn_finish, ← b₂.renderTileIn_finish]
    refine hall (fun owner => ?_) region n
    rw [World.finish_albedo, World.finish_albedo, halbedo]
  · intro finishes₁ finishes₂ halbedo region n
    exact hall halbedo region n

def foggedBallOf (material : Material) : List WorldCommand :=
  [.setInstances [.volume "fog" ⟨⟨⟨-1, -1, -3⟩, ⟨1, 1, -1⟩⟩, 1, ⟨1, 1, 1⟩⟩,
    (Instance.geometry "ball" (.sphere ⟨0, 0, -5⟩ 0.5)).withMaterial material], .commit]

def foggedBall (settings : Settings) (material : Material) : BoundJob where
  settings := settings
  world := .run (.withPolicy fun _ _ => none) (foggedBallOf material)
  camera := .default
  width := 4
  height := 3
  generation := 1

theorem SameFrame.renderTile_agree_chalk_and_glass :
    let b₁ := foggedBall { Settings.default with maxDepth := 1 } (.lambertian .one)
    let b₂ := foggedBall { Settings.default with minContribution := 0.5 } (.glass 1.5)
    b₁.world.material? 1 = some (.lambertian .one) ∧ b₂.world.material? 1 = some (.glass 1.5) ∧
      ∀ region n, (b₁.job.renderTile^[n] (.ofRegion region)).AgreeBesideColor
          (b₂.job.renderTile^[n] (.ofRegion region)) ∧
        ((b₁.renderTileIn fun _ => ⟨.zero, fun hit => hit.normal, fun _ _ rng => (none, rng)⟩)^[n]
            (.ofRegion region)).AgreeBesideColor
          ((b₂.renderTileIn fun _ => (Material.luminous .zero 7).finish)^[n]
            (.ofRegion region)) := by
  intro b₁ b₂
  have hmaterials : b₁.world.material? 1 = some (.lambertian .one) ∧
      b₂.world.material? 1 = some (.glass 1.5) := by
    decide +kernel
  have hbare : b₁.world.instances.map Instance.bare = b₂.world.instances.map Instance.bare := by
    decide +kernel
  have halbedo : b₁.world.instances.map Instance.albedo =
      b₂.world.instances.map Instance.albedo := by
    decide +kernel
  have hrun (settings : Settings) (material : Material) :
      World.run (.withPolicy fun _ _ => none) (foggedBallOf material) =
        (foggedBall settings material).world := by
    rw [foggedBall]
  have hframe : b₁.SameFrame b₂ := ⟨rfl, rfl, rfl, rfl, rfl⟩
  obtain ⟨howned, _, hany⟩ :=
    hframe.renderTile_agree (hrun _ _) (hrun _ _) hbare (by decide) (by decide)
  refine ⟨hmaterials.1, hmaterials.2, fun region n => ?_⟩
  refine ⟨howned halbedo region n, hany _ _ ?_ region n⟩
  exact fun _ => rfl

end BoundJob

end TileTracer
