import TileTracer.Proofs.CheckedPasses
import TileTracer.Proofs.TileIndependence

namespace TileTracer

open Words ArrayWrites

namespace Job

/-- The samples of the tile belong to the commit of the job, if the job can render at all. -/
def Owns (job : Job) (t : Tile) : Prop := job.context.isBound = true → t.generation = job.generation

variable {job : Job} {t : Tile}

theorem renderTile_owns (job : Job) (t : Tile) : job.Owns (job.renderTile t) := by
  intro hbound
  obtain ⟨hunbound, -⟩ | ⟨world, camera, hpass, -⟩ := job.renderTile_cases t
  · rw [hunbound] at hbound
    cases hbound
  · have hcounters := congrArg Prod.fst (job.renderBound_counters world camera t)
    rw [hpass]
    refine hcounters.trans ?_
    unfold Tile.beginPass
    split
    · rename_i hsame
      exact hsame
    · rfl

theorem Owns.counters_le (h : job.Owns t) :
    t.samples ≤ (job.renderTile t).samples ∧ t.passes ≤ (job.renderTile t).passes := by
  obtain ⟨-, hkept, -⟩ | ⟨world, camera, hpass, hbound, -⟩ := job.renderTile_cases t
  · rw [hkept]
    exact ⟨le_rfl, le_rfl⟩
  · have hcounters := job.renderBound_counters world camera t
    rw [Tile.beginPass, if_pos (h hbound), Tile.counters, Prod.mk.injEq, Prod.mk.injEq] at hcounters
    obtain ⟨-, hpasses, hsamples⟩ := hcounters
    rw [hpass]
    exact ⟨(Nat.le_add_right _ _).trans_eq hsamples.symm, (Nat.le_succ _).trans_eq hpasses.symm⟩

theorem Owns.countersFit {order : List Nat} {tiles : Array Tile} {i : Nat}
    (h : job.Owns t) (hi : tiles[i]? = some t)
    (hfits : ∀ u ∈ order.foldl (fun tiles i => tiles.modify i job.renderTile) tiles, u.CountersFit) :
    t.CountersFit := by
  -- Once the tile belongs to the commit of the job, its counters only grow up to the end of the order.
  induction order generalizing tiles t with
  | nil => exact hfits t (Array.mem_of_getElem? hi)
  | cons j order ih =>
      have hnext : (tiles.modify j job.renderTile)[i]? =
          some (if j = i then job.renderTile t else t) := by
        rw [Array.getElem?_modify, hi]
        split <;> rfl
      by_cases hji : j = i
      · rw [if_pos hji] at hnext
        obtain ⟨hsamples, hpasses⟩ := h.counters_le
        have hafter := ih (job.renderTile_owns t) hnext hfits
        exact ⟨hsamples.trans_lt hafter.samples, hpasses.trans_lt hafter.passes⟩
      · rw [if_neg hji] at hnext
        exact ih h hnext hfits

end Job

namespace FrameBuffer

def updateTile? (fb : FrameBuffer) (f : Tile → Option Tile) (i : Nat) : Option FrameBuffer :=
  match fb.tiles[i]? with
  | some t => (f t).map fun t => { fb with tiles := fb.tiles.setIfInBounds i t }
  | none => some fb

def renderTiles? (fb : FrameBuffer) (job : Job) (order : List Nat) : Option FrameBuffer :=
  order.foldlM (fun fb i => fb.updateTile? job.renderTile? i) fb

def rebuild? (fb : FrameBuffer) (layout : Layout) : Option FrameBuffer :=
  (coverTiles? layout fb.tileSize).map fun tiles => { fb.rebuild layout with tiles }

def countFrame? (fb : FrameBuffer) : Option FrameBuffer := do
  let frames ← successor64? fb.frames
  let after ← fb.endFrame?
  return { after with frames }

/-- Carries a command out under all guards, with words for the numbers of tiles; `none` if a guard
fails or a number leaves its word. -/
def checkedStep? (fb : FrameBuffer) : BufferCommand → Option FrameBuffer
  | .resize width height =>
    if width = 0 ∨ height = 0 ∨ (width = fb.layout.width ∧ height = fb.layout.height) then some fb
    else fb.rebuild? { fb.layout with width, height }
  | .setFormat format =>
    if format = fb.layout.format then some fb else fb.rebuild? { fb.layout with format }
  | .tile i command => fb.updateTile? (·.step? command) i
  | .drawTiles => fb.drawTiles?
  | .endFrame => fb.countFrame?
  | .render renderer order => match renderer.createJob fb with
    | .ok job => do
      let fb ← fb.renderTiles? job (order fb)
      let fb ← fb.drawTiles?
      fb.countFrame?
    | .error _ => some fb
  | command => fb.guardedStep? command

def checkedRun? (fb : FrameBuffer) (commands : List BufferCommand) : Option FrameBuffer :=
  commands.foldlM checkedStep? fb

/-- All numbers that belong to the tiles are words of 32 bits, and the frame counter is one of 64
bits. -/
structure FitsWords (fb : FrameBuffer) : Prop where
  tiles : fb.layout.TilesFit fb.tileSize
  counters : ∀ t ∈ fb.tiles, t.CountersFit
  frames : fb.frames < 2 ^ 64

theorem updateTile?_eq {fb : FrameBuffer} {f : Tile → Option Tile} {g : Tile → Tile} {i : Nat}
    (h : ∀ t, fb.tiles[i]? = some t → f t = some (g t)) :
    fb.updateTile? f i = some { fb with tiles := fb.tiles.modify i g } := by
  unfold updateTile?
  cases ht : fb.tiles[i]? with
  | none => rw [modify_eq_self ht]
  | some t =>
      dsimp only
      rw [h t ht, Option.map_some, setIfInBounds_eq_modify ht]

section WellFormed

variable {fb : FrameBuffer} (h : fb.WellFormed)

include h

theorem WellFormed.renderTiles?_eq (hlayout : fb.layout.TilesFit fb.tileSize) {job : Job}
    {order : List Nat} (hcounters : ∀ t ∈ (fb.renderTiles job order).tiles, t.CountersFit) :
    fb.renderTiles? job order = some (fb.renderTiles job order) := by
  induction order generalizing fb with
  | nil => rfl
  | cons i order ih =>
      have hfirst : fb.updateTile? job.renderTile? i = some (fb.renderTile job i) := by
        apply updateTile?_eq
        intro t ht
        have hmem := Array.mem_of_getElem? ht
        have hnext : (fb.tiles.modify i job.renderTile)[i]? = some (job.renderTile t) := by
          rw [Array.getElem?_modify, if_pos rfl, ht, Option.map_some]
        rw [foldl_renderTile_eq] at hcounters
        exact job.renderTile?_eq (hlayout.fitsWords (h.tiles.region_mem hmem))
          (h.tiles.fits_of_mem hmem) ((job.renderTile_owns t).countersFit hnext hcounters)
      have hnext : (fb.renderTile job i).WellFormed :=
        { h with tiles := h.tiles.modify (fun _ _ => job.renderTile_fits) i }
      rw [renderTiles?, List.foldlM_cons, hfirst]
      exact ih hnext hlayout hcounters

theorem WellFormed.rebuild?_eq {layout : Layout} (hlayout : layout.TilesFit fb.tileSize) :
    fb.rebuild? layout = some (fb.rebuild layout) := by
  have htiles : (fb.rebuild layout).tiles = coverTiles layout fb.tileSize := by
    rw [rebuild_eq]
    exact congrArg (coverTiles layout) (Nat.max_eq_left h.tileSize_pos)
  rw [rebuild?, hlayout.coverTiles?_eq, ← htiles]
  rfl

theorem WellFormed.countFrame?_eq (hframes : fb.endFrame.frames < 2 ^ 64) :
    fb.countFrame? = some fb.endFrame := by
  rw [countFrame?, successor64?_eq hframes, h.endFrame?_eq]
  rfl

theorem WellFormed.rebuildUnless?_eq {p : Prop} [Decidable p] {layout : Layout} {after : FrameBuffer}
    (hguarded : (if p then some fb else some (fb.rebuild layout)) = some after)
    (hfits : after.FitsWords) :
    (if p then some fb else fb.rebuild? layout) = some after := by
  by_cases hp : p
  · rwa [if_pos hp] at hguarded ⊢
  · rw [if_neg hp] at hguarded ⊢
    obtain rfl := Option.some.inj hguarded
    have hlayout := hfits.tiles
    rw [rebuild_eq] at hlayout
    refine h.rebuild?_eq ?_
    rw [← Nat.max_eq_left h.tileSize_pos]
    exact hlayout

theorem WellFormed.renderFrame?_eq {job : Job} {order : List Nat}
    (hfits : (fb.renderTiles job order).finish.FitsWords) :
    (do
      let fb ← fb.renderTiles? job order
      let fb ← fb.drawTiles?
      fb.countFrame?) = some (fb.renderTiles job order).finish := by
  have hlayout : fb.layout.TilesFit fb.tileSize := by
    have htiles := hfits.tiles
    rw [foldl_renderTile_eq] at htiles
    exact htiles
  have hrendered := h.renderTiles job order
  rw [h.renderTiles?_eq hlayout hfits.counters]
  simp only [Option.bind_eq_bind, Option.bind_some]
  rw [hrendered.drawTiles?_eq, Option.bind_some]
  exact hrendered.drawTiles.countFrame?_eq hfits.frames

theorem WellFormed.checkedStep?_eq {command : BufferCommand} (hfits : (fb.step command).FitsWords) :
    fb.checkedStep? command = some (fb.step command) := by
  have hguarded := h.guardedStep?_eq command
  cases command with
  | resize width height => exact h.rebuildUnless?_eq hguarded hfits
  | setFormat format => exact h.rebuildUnless?_eq hguarded hfits
  | tile i command =>
      refine updateTile?_eq fun t ht => Tile.CountersFit.step?_eq (hfits.counters _ ?_)
      refine Array.mem_of_getElem? (i := i) ?_
      rw [FrameBuffer.step, Array.getElem?_modify, if_pos rfl, ht, Option.map_some]
  | drawTiles => exact h.drawTiles?_eq
  | endFrame => exact h.countFrame?_eq hfits.frames
  | render renderer order =>
      unfold FrameBuffer.step Renderer.renderFrame at hfits ⊢
      unfold checkedStep?
      dsimp only at hfits ⊢
      cases hjob : renderer.createJob fb with
      | error e => rfl
      | ok job =>
          rw [hjob] at hfits
          exact h.renderFrame?_eq hfits
  | addOp op => exact hguarded
  | clearOps => exact hguarded
  | resetAccumulation => exact hguarded
  | write values => exact hguarded

theorem WellFormed.checkedRun?_eq {commands : List BufferCommand}
    (hfits : ∀ done, done <+: commands → (fb.run done).FitsWords) :
    fb.checkedRun? commands = some (fb.run commands) :=
  foldlM_of_prefixes (I := WellFormed) (fun _ _ hfb hnext => hfb.checkedStep?_eq hnext)
    (fun _ command hfb => hfb.step command) h hfits

end WellFormed

theorem fresh_countersFit (layout : Layout) (tileSize : Nat) :
    ∀ t ∈ coverTiles layout tileSize, t.CountersFit := by
  intro t ht
  obtain ⟨r, -, rfl⟩ := List.mem_map.mp (List.mem_toArray.mp ht)
  exact Tile.ofRegion_countersFit r

theorem eq_blank_of_create {layout : Layout} {tileSize : Nat} {fb : FrameBuffer}
    (h : create layout tileSize = .ok fb) : fb = blank layout tileSize := by
  unfold create at h
  split at h
  · cases h
  · exact (Except.ok.inj h).symm

/-- Whatever is done to a new frame buffer, as long as the numbers of all its tiles are words: no
guard ever fails, and layout, channels, tiles and operations agree. -/
theorem run_create_consistent {layout : Layout} {tileSize : Nat} {fb : FrameBuffer}
    (hcreate : create layout tileSize = .ok fb) {commands : List BufferCommand}
    (hfits : ∀ done, done <+: commands → (fb.run done).FitsWords) :
    ∃ after, after = fb.run commands ∧ coverTiles? layout fb.tileSize = some fb.tiles ∧
      fb.checkedRun? commands = some after ∧ fb.guardedRun? commands = some after ∧
      (0 < after.layout.width ∧ 0 < after.layout.height ∧ 0 < after.tileSize) ∧
      ((∃ pixels, after.canvas.color = .bytes pixels) ↔
        after.layout.format = .rgba8 ∨ after.layout.format = .srgba) ∧
      after.canvas.color.size = after.layout.width * after.layout.height ∧
      (after.canvas.depth.isSome = after.layout.channels.depth ∧
        ∀ a, after.canvas.depth = some a → a.size = after.layout.width * after.layout.height) ∧
      (after.canvas.albedo.isSome = after.layout.channels.albedo ∧
        ∀ a, after.canvas.albedo = some a → a.size = after.layout.width * after.layout.height) ∧
      (after.canvas.normal.isSome = after.layout.channels.normal ∧
        ∀ a, after.canvas.normal = some a → a.size = after.layout.width * after.layout.height) ∧
      after.tiles.toList.map Tile.region =
        Region.cover after.layout.width after.layout.height after.tileSize ∧
      (∀ t ∈ after.tiles, t.color.size = t.region.width * t.region.height ∧
        t.depth.size = t.region.width * t.region.height ∧
        t.albedo.size = t.region.width * t.region.height ∧
        t.normal.size = t.region.width * t.region.height ∧
        t.sums.size = t.region.width * t.region.height) ∧
      after.viewLayout = after.layout ∧
      ∀ stage ∈ after.stages, stage.layout = after.viewLayout := by
  have hstart := create_wellFormed hcreate
  have h := hstart.run commands
  have htiles : coverTiles? layout fb.tileSize = some fb.tiles := by
    obtain rfl := eq_blank_of_create hcreate
    exact (hfits [] List.nil_prefix).tiles.coverTiles?_eq
  refine ⟨_, rfl, htiles, hstart.checkedRun?_eq hfits, hstart.guardedRun?_eq commands,
    ⟨h.width_pos, h.height_pos, h.tileSize_pos⟩, h.canvas.color.bytes_iff, h.canvas.color.size_eq,
    Canvas.size_of_channel h.canvas.depth, Canvas.size_of_channel h.canvas.albedo,
    Canvas.size_of_channel h.canvas.normal, h.tiles.map_region, ?_, h.viewLayout_eq, ?_⟩
  · intro t ht
    have hfits := h.tiles.fits_of_mem ht
    exact ⟨hfits.color, hfits.depth, hfits.albedo, hfits.normal, hfits.sums⟩
  · intro stage hstage
    rw [h.viewLayout_eq]
    exact (h.stages stage hstage).1

theorem run_create_consistent_relayout :
    ∃ (fb after : FrameBuffer) (commands : List BufferCommand),
      commands = [.addOp (.toneMap 1.0), .addOp .depth, .tile 1 (.endPass 4), .setFormat .srgba,
        .resize 0 9, .resize 5 4, .endFrame] ∧
      create ⟨3, 2, .rgba32f, ⟨true, false, true⟩⟩ 2 = .ok fb ∧
      (∀ done, done <+: commands → (fb.run done).FitsWords) ∧
      fb.checkedRun? commands = some after ∧
      after.layout = ⟨5, 4, .srgba, ⟨true, false, true⟩⟩ ∧ after.frames = 1 ∧
      after.opNames = ["frame_depth"] ∧ after.canvas.color.size = 20 ∧
      after.viewLayout = after.layout ∧ ∀ stage ∈ after.stages, stage.layout = after.viewLayout := by
  let commands : List BufferCommand :=
    [.addOp (.toneMap 1.0), .addOp .depth, .tile 1 (.endPass 4), .setFormat .srgba, .resize 0 9,
      .resize 5 4, .endFrame]
  have hsmall (format : PixelFormat) (width height : Nat) (hwidth : width ≤ 2 ^ 31)
      (hheight : height ≤ 2 ^ 31) :
      (⟨width, height, format, ⟨true, false, true⟩⟩ : Layout).TilesFit 2 :=
    .of_small hwidth hheight (by decide)
  have hfits : ∀ done, done <+: commands →
      ((blank ⟨3, 2, .rgba32f, ⟨true, false, true⟩⟩ 2).run done).FitsWords := by
    have hfirst := hsmall .rgba32f 3 2 (by decide) (by decide)
    have hsecond := hsmall .srgba 3 2 (by decide) (by decide)
    have hthird := hsmall .srgba 5 4 (by decide) (by decide)
    have hended : ∀ t ∈ (coverTiles ⟨3, 2, .rgba32f, ⟨true, false, true⟩⟩ 2).modify 1
        (·.step (.endPass 4)), t.CountersFit := by
      refine forall_mem_modify (fresh_countersFit _ _) (fun t ht => ?_) 1
      obtain ⟨r, -, rfl⟩ := List.mem_map.mp (List.mem_toArray.mp ht)
      constructor
      · rw [Tile.step, Tile.endPass_samples]
        exact show 0 + 4 < 2 ^ 32 by decide
      · rw [Tile.step, Tile.endPass_passes]
        exact show 0 + 1 < 2 ^ 32 by decide
    refine forall_prefixes_cons ⟨hfirst, fresh_countersFit _ _, by decide⟩ ?_
    refine forall_prefixes_cons ⟨hfirst, fresh_countersFit _ _, by decide⟩ ?_
    refine forall_prefixes_cons ⟨hfirst, fresh_countersFit _ _, by decide⟩ ?_
    refine forall_prefixes_cons ⟨hfirst, hended, by decide⟩ ?_
    refine forall_prefixes_cons ⟨hsecond, fresh_countersFit _ _, by decide⟩ ?_
    refine forall_prefixes_cons ⟨hsecond, fresh_countersFit _ _, by decide⟩ ?_
    refine forall_prefixes_cons ⟨hthird, fresh_countersFit _ _, by decide⟩ ?_
    rintro done hdone
    obtain rfl := List.prefix_nil.mp hdone
    exact ⟨hthird, fresh_countersFit _ _, by decide⟩
  obtain ⟨after, rfl, -, hchecked, -, -, -, hcolor, -, -, -, -, -, hview, hstages⟩ :=
    run_create_consistent (show create ⟨3, 2, .rgba32f, ⟨true, false, true⟩⟩ 2 = .ok _ from rfl) hfits
  exact ⟨_, _, commands, rfl, rfl, hfits, hchecked, rfl, rfl, rfl, hcolor, hview, hstages⟩

end FrameBuffer

end TileTracer
