import TileTracer.Proofs.CanvasDrawing
import TileTracer.Render.Progress

namespace TileTracer

def Commitment.job (c : Commitment) (settings : Settings) (layout : Layout) : Job where
  context := { settings, world := some c.world, camera := some c.camera }
  generation := c.generation
  width := layout.width
  height := layout.height

/-- The channels after a number of frames. Only the tiles carry anything from one frame to the
next; the operations run on the fresh image of each. -/
def Commitment.canvasAfter (c : Commitment) (settings : Settings) (layout : Layout)
    (stages : List Stage) : Nat → Canvas
  | 0 => .blank layout
  | n + 1 => stages.foldl (fun canvas stage => stage.op.run canvas)
      (.ofExposure layout
        ((c.job settings layout).exposureAfter c.world c.camera (n + 1)))

theorem Renderer.createJob_of_committed {r : Renderer} {c : Commitment}
    (hcommitted : r.committed = some c) (fb : FrameBuffer) :
    r.createJob fb = .ok (c.job r.settings fb.layout) := by
  simp only [Renderer.createJob, hcommitted]
  rfl

def Renderer.renderFrames (r : Renderer) :
    List (FrameBuffer → List Nat) → FrameBuffer → Except RenderError FrameBuffer
  | [], fb => .ok fb
  | order :: orders, fb => do r.renderFrames orders (← r.renderFrame order fb)

namespace FrameBuffer

def setUp (layout : Layout) (tileSize : Nat) (ops : List FrameOp) :
    Except RenderError FrameBuffer := do
  let fb ← create layout tileSize
  ops.foldlM addOp fb

/-- An order that names each tile once in every buffer with so many tiles. -/
def IsTileOrder (tiles : Nat) (order : FrameBuffer → List Nat) : Prop :=
  ∀ fb : FrameBuffer, fb.tiles.size = tiles → (order fb).Perm (List.range tiles)

theorem coverTiles_size (layout : Layout) (tileSize : Nat) :
    (coverTiles layout tileSize).size =
      Region.cells layout.height (max tileSize 1) * Region.cells layout.width (max tileSize 1) := by
  rw [coverTiles, List.size_toArray, List.length_map, Region.length_cover]

theorem centerOrder_isTileOrder (tiles : Nat) : IsTileOrder tiles centerOrder := by
  intro fb htiles
  rw [centerOrder, htiles]

theorem gridOrder_isTileOrder (tiles : Nat) : IsTileOrder tiles gridOrder := by
  intro fb htiles
  exact (List.mergeSort_perm _ _).trans (centerOrder_isTileOrder tiles fb htiles)

def after (c : Commitment) (settings : Settings) (layout : Layout) (tileSize : Nat)
    (stages : List Stage) (n : Nat) : FrameBuffer where
  layout
  canvas := c.canvasAfter settings layout stages n
  tileSize := max tileSize 1
  tiles := ((Region.cover layout.width layout.height (max tileSize 1)).map fun r =>
    (c.job settings layout).tileAfter c.world c.camera r n).toArray
  stages
  frames := n

variable (c : Commitment) (settings : Settings) (layout : Layout) (tileSize : Nat)
  (stages : List Stage)

theorem after_zero :
    after c settings layout tileSize stages 0 = { blank layout tileSize with stages } := by
  simp only [after, Commitment.canvasAfter, Job.tileAfter_zero, blank, coverTiles]

theorem canvasAfter_fits (n : Nat) : (c.canvasAfter settings layout stages n).Fits layout := by
  cases n with
  | zero => exact Canvas.blank_fits layout
  | succ n =>
      rw [Commitment.canvasAfter]
      exact FrameOp.foldl_run_fits (Canvas.ofExposure_fits layout _) stages

theorem foldlM_addOp_eq_ok {ops : List FrameOp} {fb fb' : FrameBuffer}
    (h : ops.foldlM addOp fb = .ok fb') :
    fb' = { fb with stages := fb.stages ++ ops.map (⟨·, fb.layout⟩) } := by
  induction ops generalizing fb with
  | nil =>
      cases h
      simp
  | cons op ops ih =>
      rw [List.foldlM_cons] at h
      unfold addOp FrameOp.attach at h
      cases hobstacle : op.obstacle? fb.layout with
      | some e => simp [hobstacle, bind, Except.bind] at h
      | none =>
          simp only [hobstacle, bind, Except.bind, pure, Except.pure] at h
          rw [ih h]
          simp

theorem setUp_eq_ok {layout : Layout} {tileSize : Nat} {ops : List FrameOp} {fb : FrameBuffer}
    (h : setUp layout tileSize ops = .ok fb) :
    (0 < layout.width ∧ 0 < layout.height) ∧
      fb = { blank layout tileSize with stages := ops.map (⟨·, layout⟩) } := by
  unfold setUp create at h
  split at h
  · simp [bind, Except.bind] at h
  · rename_i hsize
    simp only [Bool.or_eq_true, decide_eq_true_eq, not_or] at hsize
    exact ⟨⟨Nat.pos_of_ne_zero hsize.1, Nat.pos_of_ne_zero hsize.2⟩, foldlM_addOp_eq_ok h⟩

theorem foldl_renderTile_eq (fb : FrameBuffer) (job : Job) (order : List Nat) :
    fb.renderTiles job order =
      { fb with tiles := order.foldl (fun tiles i => tiles.modify i job.renderTile) fb.tiles } := by
  unfold renderTiles
  induction order generalizing fb with
  | nil => rfl
  | cons i order ih =>
      rw [List.foldl_cons, ih]
      rfl

theorem renderTiles_of_perm {fb : FrameBuffer} {order : List Nat} (job : Job)
    (hperm : order.Perm (List.range fb.tiles.size)) :
    fb.renderTiles job order = { fb with tiles := fb.tiles.map job.renderTile } := by
  rw [foldl_renderTile_eq, ArrayWrites.foldl_modify_of_perm _ hperm]
  congr 1
  apply Array.ext_getElem?
  intro i
  rw [Array.getElem?_mapIdx, Array.getElem?_map]

theorem tiles_after_map (n : Nat) :
    (after c settings layout tileSize stages n).tiles.map (c.job settings layout).renderTile =
      (after c settings layout tileSize stages (n + 1)).tiles := by
  simp only [after, List.map_toArray, List.map_map]
  congr 1
  apply List.map_congr_left
  intro r _
  exact (c.job settings layout).renderBound_tileAfter c.world c.camera r n

theorem drawn_tiles_after (n : Nat) :
    (after c settings layout tileSize stages (n + 1)).tiles.foldl
        (fun canvas tile => canvas.drawTile layout tile)
        (c.canvasAfter settings layout stages n) =
      .ofExposure layout ((c.job settings layout).exposureAfter c.world c.camera (n + 1)) := by
  rw [after, List.foldl_toArray]
  apply Canvas.foldl_drawTile_eq_ofExposure (canvasAfter_fits c settings layout stages n)
  · intro t ht
    obtain ⟨r, _, rfl⟩ := List.mem_map.mp ht
    exact (c.job settings layout).tileAfter_shows c.world c.camera r (n + 1)
  · intro t ht
    obtain ⟨r, hr, rfl⟩ := List.mem_map.mp ht
    exact Region.inside_of_mem_cover hr
  · intro x hx y hy
    obtain ⟨r, hr, hcovers⟩ := Region.exists_mem_cover_covers (max tileSize 1) hx hy
    exact ⟨_, List.mem_map_of_mem hr, hcovers⟩

/-- One frame, in any order of the tiles, leads from one number of frames to the next. -/
theorem renderFrame_after {r : Renderer} (hcommitted : r.committed = some c)
    {order : FrameBuffer → List Nat} (n : Nat)
    (hperm : (order (after c r.settings layout tileSize stages n)).Perm
      (List.range (after c r.settings layout tileSize stages n).tiles.size)) :
    r.renderFrame order (after c r.settings layout tileSize stages n) =
      .ok (after c r.settings layout tileSize stages (n + 1)) := by
  rw [Renderer.renderFrame, Renderer.createJob_of_committed hcommitted]
  change Except.ok (finish (renderTiles _ (c.job r.settings layout) _)) = Except.ok _
  rw [renderTiles_of_perm _ hperm, tiles_after_map]
  apply congrArg Except.ok
  exact congrArg (fun canvas : Canvas =>
    { after c r.settings layout tileSize stages (n + 1) with
      canvas := stages.foldl (fun canvas (stage : Stage) => stage.op.run canvas) canvas })
    (drawn_tiles_after c r.settings layout tileSize stages n)

theorem tiles_after_size (n : Nat) :
    (after c settings layout tileSize stages n).tiles.size =
      (coverTiles layout (max tileSize 1)).size := by
  simp [after, coverTiles]

theorem renderFrames_after {r : Renderer} (hcommitted : r.committed = some c)
    {orders : List (FrameBuffer → List Nat)}
    (horders : ∀ order ∈ orders, IsTileOrder (coverTiles layout (max tileSize 1)).size order)
    (n : Nat) :
    r.renderFrames orders (after c r.settings layout tileSize stages n) =
      .ok (after c r.settings layout tileSize stages (n + orders.length)) := by
  induction orders generalizing n with
  | nil => rfl
  | cons order orders ih =>
      have hsize := tiles_after_size c r.settings layout tileSize stages n
      have hperm := horders order List.mem_cons_self _ hsize
      rw [← hsize] at hperm
      rw [Renderer.renderFrames, renderFrame_after c layout tileSize stages hcommitted n hperm]
      have hrest := ih (fun o ho => horders o (List.mem_cons_of_mem order ho)) (n + 1)
      rw [List.length_cons, Nat.add_comm orders.length 1, ← Nat.add_assoc]
      exact hrest

theorem samples_of_mem_tiles_after {n : Nat} {t : Tile}
    (ht : t ∈ (after c settings layout tileSize stages n).tiles) :
    t.samples = n * max settings.samplesPerPixel.toNat 1 := by
  simp only [after, List.mem_toArray, List.mem_map] at ht
  obtain ⟨r, _, rfl⟩ := ht
  rfl

theorem leastSamples_eq {fb : FrameBuffer} {n : Nat} {t : Tile} (ht : t ∈ fb.tiles)
    (hsamples : ∀ t ∈ fb.tiles, t.samples = n) : fb.leastSamples = n := by
  have hmin : (fb.tiles.toList.map Tile.samples).min? = some n := by
    rw [List.min?_eq_some_iff]
    constructor
    · exact List.mem_map.mpr ⟨t, Array.mem_toList_iff.mpr ht, hsamples t ht⟩
    · intro samples hmem
      obtain ⟨u, hu, rfl⟩ := List.mem_map.mp hmem
      exact Nat.le_of_eq (hsamples u (Array.mem_toList_iff.mp hu)).symm
  rw [leastSamples, hmin, Option.getD_some]

theorem leastSamples_after (hwidth : 0 < layout.width) (hheight : 0 < layout.height) (n : Nat) :
    (after c settings layout tileSize stages n).leastSamples =
      n * max settings.samplesPerPixel.toNat 1 := by
  obtain ⟨r, hr, _⟩ := Region.exists_mem_cover_covers (max tileSize 1) hwidth hheight
  have hmem : (c.job settings layout).tileAfter c.world c.camera r n ∈
      (after c settings layout tileSize stages n).tiles := by
    simp only [after, List.mem_toArray]
    exact List.mem_map_of_mem hr
  exact leastSamples_eq hmem fun t ht =>
    samples_of_mem_tiles_after c settings layout tileSize stages ht

end FrameBuffer

open FrameBuffer in
/-- Buffers of one layout and with the same operations, cut into tiles of any two sizes and rendered
for the same number of frames with any orders of their tiles, end with the same channels, the same
frame counter and the same number of samples for every pixel. -/
theorem Renderer.renderFrames_independent_of_tiles {r : Renderer} {c : Commitment}
    (hcommitted : r.committed = some c) {layout : Layout} {ops : List FrameOp}
    {size₁ size₂ : Nat} {fb₁ fb₂ : FrameBuffer}
    (hsetUp₁ : setUp layout size₁ ops = .ok fb₁) (hsetUp₂ : setUp layout size₂ ops = .ok fb₂)
    {orders₁ orders₂ : List (FrameBuffer → List Nat)}
    (horders₁ : ∀ order ∈ orders₁, IsTileOrder fb₁.tiles.size order)
    (horders₂ : ∀ order ∈ orders₂, IsTileOrder fb₂.tiles.size order)
    (hframes : orders₁.length = orders₂.length) :
    ∃ end₁ end₂, r.renderFrames orders₁ fb₁ = .ok end₁ ∧ r.renderFrames orders₂ fb₂ = .ok end₂ ∧
      end₁.canvas = end₂.canvas ∧
      end₁.frames = end₂.frames ∧ end₁.frames = orders₁.length ∧
      (∀ t₁ ∈ end₁.tiles, ∀ t₂ ∈ end₂.tiles, t₁.samples = t₂.samples) ∧
      end₁.leastSamples = end₂.leastSamples := by
  obtain ⟨⟨hwidth, hheight⟩, rfl⟩ := setUp_eq_ok hsetUp₁
  obtain ⟨_, rfl⟩ := setUp_eq_ok hsetUp₂
  have hrun₁ := renderFrames_after c layout size₁ (ops.map (⟨·, layout⟩)) hcommitted horders₁ 0
  have hrun₂ := renderFrames_after c layout size₂ (ops.map (⟨·, layout⟩)) hcommitted horders₂ 0
  rw [after_zero, Nat.zero_add] at hrun₁ hrun₂
  rw [← hframes] at hrun₂
  refine ⟨_, _, hrun₁, hrun₂, rfl, rfl, rfl, ?_, ?_⟩
  · intro t₁ ht₁ t₂ ht₂
    rw [samples_of_mem_tiles_after c r.settings layout size₁ _ ht₁,
      samples_of_mem_tiles_after c r.settings layout size₂ _ ht₂]
  · rw [leastSamples_after c r.settings layout size₁ _ hwidth hheight,
      leastSamples_after c r.settings layout size₂ _ hwidth hheight]

open FrameBuffer in
theorem Renderer.renderFrames_two_tiles_and_six :
    ∃ (r : Renderer) (fb₁ fb₂ : FrameBuffer), r.committed.isSome ∧
      setUp ⟨3, 2, .rgba32f, ⟨true, false, true⟩⟩ 2 [.toneMap 1.0, .depth] = .ok fb₁ ∧
      setUp ⟨3, 2, .rgba32f, ⟨true, false, true⟩⟩ 0 [.toneMap 1.0, .depth] = .ok fb₂ ∧
      fb₁.tiles.size = 2 ∧ fb₂.tiles.size = 6 ∧
      ∃ end₁ end₂, r.renderFrames [centerOrder, gridOrder] fb₁ = .ok end₁ ∧
        r.renderFrames [gridOrder, fun _ => [3, 0, 5, 1, 4, 2]] fb₂ = .ok end₂ ∧
        end₁.canvas = end₂.canvas ∧ end₁.frames = 2 := by
  let layout : Layout := ⟨3, 2, .rgba32f, ⟨true, false, true⟩⟩
  let c : Commitment := ⟨(World.commit .empty).2, .default, 1⟩
  let r : Renderer := { create .default .empty with committed := some c }
  have hsize₁ : (coverTiles layout 2).size = 2 := by
    simp [coverTiles_size, Region.cells, layout]
  have hsize₂ : (coverTiles layout 1).size = 6 := by
    simp [coverTiles_size, Region.cells, layout]
  have hpermuted : IsTileOrder (coverTiles layout 1).size fun _ => [3, 0, 5, 1, 4, 2] := by
    rw [hsize₂]
    exact fun _ _ => (by decide : [3, 0, 5, 1, 4, 2].Perm (List.range 6))
  refine ⟨r, _, _, rfl, rfl, rfl, hsize₁, hsize₂, ?_⟩
  obtain ⟨end₁, end₂, hrun₁, hrun₂, hcanvas, _, hframes, _⟩ :=
    Renderer.renderFrames_independent_of_tiles (show r.committed = some c from rfl)
      (show setUp layout 2 [.toneMap 1.0, .depth] = .ok _ from rfl)
      (show setUp layout 0 [.toneMap 1.0, .depth] = .ok _ from rfl)
      (List.forall_mem_cons.mpr ⟨centerOrder_isTileOrder _,
        List.forall_mem_singleton.mpr (gridOrder_isTileOrder _)⟩)
      (List.forall_mem_cons.mpr ⟨gridOrder_isTileOrder _,
        List.forall_mem_singleton.mpr hpermuted⟩) rfl
  exact ⟨end₁, end₂, hrun₁, hrun₂, hcanvas, hframes⟩

end TileTracer
