import Mathlib.Logic.Function.Iterate
import TileTracer.Proofs.TileIndependence
import TileTracer.Proofs.TileMosaic

namespace TileTracer

namespace FrameBuffer

/-- The buffers agree in all but the contents of their channels. -/
structure SameButChannels (fb₁ fb₂ : FrameBuffer) : Prop where
  layout : fb₁.layout = fb₂.layout
  tileSize : fb₁.tileSize = fb₂.tileSize
  tiles : fb₁.tiles = fb₂.tiles
  ops : fb₁.stages.map (·.op) = fb₂.stages.map (·.op)
  frames : fb₁.frames = fb₂.frames

/-- The buffer after `n` passes of every tile, its channels made from the tiles alone. -/
def rendered (fb : FrameBuffer) (job : Job) (n : Nat) : FrameBuffer :=
  let tiles := fb.tiles.map (job.renderTile^[n])
  { fb with
    tiles
    canvas := fb.stages.foldl (fun canvas stage => stage.op.run canvas)
      (.ofExposure fb.layout (Tile.exposure tiles.toList))
    frames := fb.frames + n }

theorem rendered_rendered (fb : FrameBuffer) (job : Job) (m n : Nat) :
    (fb.rendered job m).rendered job n = fb.rendered job (m + n) := by
  have htiles : (fb.tiles.map (job.renderTile^[m])).map (job.renderTile^[n]) =
      fb.tiles.map (job.renderTile^[m + n]) := by
    rw [Array.map_map, Nat.add_comm, Function.iterate_add]
  simp only [rendered, htiles, Nat.add_assoc]

variable {fb fb₁ fb₂ : FrameBuffer} {r : Renderer} {c : Commitment}

theorem WellFormed.stages_eq (h : fb.WellFormed) :
    fb.stages = (fb.stages.map (·.op)).map (⟨·, fb.layout⟩) := by
  rw [List.map_map]
  refine (List.map_id' fb.stages).symm.trans (List.map_congr_left ?_)
  rintro ⟨op, layout⟩ hstage
  rw [Function.comp_apply, ← (h.stages _ hstage).1]

theorem SameButChannels.rendered_eq (hsame : fb₁.SameButChannels fb₂) (h₁ : fb₁.WellFormed)
    (h₂ : fb₂.WellFormed) (job : Job) (n : Nat) : fb₂.rendered job n = fb₁.rendered job n := by
  have hstages : fb₂.stages = fb₁.stages := by
    rw [h₁.stages_eq, h₂.stages_eq, hsame.ops, hsame.layout]
  simp only [rendered, hstages, hsame.layout, hsame.tileSize, hsame.tiles, hsame.frames]

theorem WellFormed.drawTiles_eq (h : fb.WellFormed) :
    fb.drawTiles =
      { fb with canvas := .ofExposure fb.layout (Tile.exposure fb.tiles.toList) } := by
  rw [FrameBuffer.drawTiles, ← Array.foldl_toList]
  congr 1
  exact Canvas.foldl_drawTile_eq_exposure h.canvas h.tiles (List.Perm.refl _)

theorem WellFormed.renderFrame_eq (h : fb.WellFormed) (hcommitted : r.committed = some c)
    {order : FrameBuffer → List Nat} (horder : IsTileOrder fb.tiles.size order) :
    r.renderFrame order fb = .ok (fb.rendered (c.job r.settings fb.layout) 1) := by
  rw [Renderer.renderFrame, Renderer.createJob_of_committed hcommitted]
  change Except.ok (fb.renderTiles _ _).finish = _
  rw [finish, (h.renderTiles _ _).drawTiles_eq, renderTiles_of_perm _ (horder fb rfl)]
  rfl

theorem WellFormed.rendered (h : fb.WellFormed) (hcommitted : r.committed = some c)
    {order : FrameBuffer → List Nat} (horder : IsTileOrder fb.tiles.size order) :
    (fb.rendered (c.job r.settings fb.layout) 1).WellFormed := by
  have hstep : ((r.renderFrame order fb).toOption.getD fb).WellFormed :=
    h.step (.render r order)
  rwa [h.renderFrame_eq hcommitted horder] at hstep

theorem WellFormed.renderFrames_eq (h : fb.WellFormed) (hcommitted : r.committed = some c)
    {orders : List (FrameBuffer → List Nat)} (hsome : orders ≠ [])
    (horders : ∀ order ∈ orders, IsTileOrder fb.tiles.size order) :
    r.renderFrames orders fb = .ok (fb.rendered (c.job r.settings fb.layout) orders.length) := by
  induction orders generalizing fb with
  | nil => exact absurd rfl hsome
  | cons order orders ih =>
      obtain ⟨horder, hrest⟩ := List.forall_mem_cons.mp horders
      rw [Renderer.renderFrames, h.renderFrame_eq hcommitted horder]
      change r.renderFrames orders (fb.rendered (c.job r.settings fb.layout) 1) = _
      rcases orders with _ | ⟨next, orders⟩
      · rfl
      · have hsize : (fb.rendered (c.job r.settings fb.layout) 1).tiles.size = fb.tiles.size :=
          Array.size_map
        have hnext := ih (h.rendered hcommitted horder) (List.cons_ne_nil next orders) fun o ho =>
          hsize.symm ▸ hrest o ho
        rw [hnext, List.length_cons (a := order), Nat.add_comm _ 1, ← rendered_rendered]
        rfl

end FrameBuffer

open FrameBuffer in
/-- Buffers that agree in all but the contents of their channels become the same buffer with the
next frame, and stay so. After any number of frames the channels are the image made up by the tiles,
with each operation run on it once, and the tiles are what passes alone have made of them. -/
theorem Renderer.renderFrames_fresh {r : Renderer} {c : Commitment}
    (hcommitted : r.committed = some c) {fb₁ fb₂ : FrameBuffer} (h₁ : fb₁.WellFormed)
    (h₂ : fb₂.WellFormed) (hsame : fb₁.SameButChannels fb₂)
    {orders₁ orders₂ : List (FrameBuffer → List Nat)}
    (hsome : orders₁ ≠ []) (hframes : orders₁.length = orders₂.length)
    (horders₁ : ∀ order ∈ orders₁, IsTileOrder fb₁.tiles.size order)
    (horders₂ : ∀ order ∈ orders₂, IsTileOrder fb₁.tiles.size order) :
    ∃ after, r.renderFrames orders₁ fb₁ = .ok after ∧ r.renderFrames orders₂ fb₂ = .ok after ∧
      after.tiles = fb₁.tiles.map ((c.job r.settings fb₁.layout).renderTile^[orders₁.length]) ∧
      after.canvas = fb₁.stages.foldl (fun canvas stage => stage.op.run canvas)
        (.ofExposure fb₁.layout (Tile.exposure after.tiles.toList)) := by
  have hsome₂ : orders₂ ≠ [] := by
    rintro rfl
    exact hsome (List.length_eq_zero_iff.mp hframes)
  rw [hsame.tiles] at horders₂
  refine ⟨_, h₁.renderFrames_eq hcommitted hsome horders₁, ?_, rfl, rfl⟩
  rw [h₂.renderFrames_eq hcommitted hsome₂ horders₂, ← hsame.layout, hsame.rendered_eq h₁ h₂,
    hframes]

open FrameBuffer in
theorem Renderer.renderFrames_fresh_painted :
    ∃ (r : Renderer) (fb painted after : FrameBuffer), r.committed.isSome ∧
      setUp ⟨3, 2, .rgba32f, ⟨true, true, false⟩⟩ 2 [.toneMap 0.5, .depth, .toneMap 0.5] =
        .ok fb ∧
      fb.run [.write (.floats #[⟨1, 2, 3, 4⟩]), .write (.depth #[7])] = painted ∧
      painted.canvas ≠ fb.canvas ∧
      r.renderFrames [centerOrder, gridOrder] fb = .ok after ∧
      r.renderFrames [gridOrder, centerOrder] painted = .ok after ∧
      after.canvas = FrameOp.run (.toneMap 0.5) (FrameOp.run .depth (FrameOp.run (.toneMap 0.5)
        (.ofExposure ⟨3, 2, .rgba32f, ⟨true, true, false⟩⟩
          (Tile.exposure after.tiles.toList)))) := by
  let layout : Layout := ⟨3, 2, .rgba32f, ⟨true, true, false⟩⟩
  let c : Commitment := ⟨(World.commit .empty).2, .default, 1⟩
  let r : Renderer := { create .default .empty with committed := some c }
  let stages : List Stage := [.toneMap 0.5, .depth, .toneMap 0.5].map (⟨·, layout⟩)
  let fb : FrameBuffer := { blank layout 2 with stages }
  have hsetUp : setUp layout 2 [.toneMap 0.5, .depth, .toneMap 0.5] = .ok fb := rfl
  have hfb : fb.WellFormed :=
    { create_wellFormed (rfl : FrameBuffer.create layout 2 = .ok _) with stages := by decide }
  let painted : FrameBuffer := fb.run [.write (.floats #[⟨1, 2, 3, 4⟩]), .write (.depth #[7])]
  have hsame : fb.SameButChannels painted := ⟨rfl, rfl, rfl, rfl, rfl⟩
  have horders : ∀ order ∈ [centerOrder, gridOrder], IsTileOrder fb.tiles.size order :=
    List.forall_mem_cons.mpr ⟨centerOrder_isTileOrder _,
      List.forall_mem_singleton.mpr (gridOrder_isTileOrder _)⟩
  have horders' : ∀ order ∈ [gridOrder, centerOrder], IsTileOrder fb.tiles.size order :=
    fun order ho => horders order (List.mem_reverse.mpr ho)
  obtain ⟨after, hrun, hrun', _, hcanvas⟩ :=
    renderFrames_fresh (rfl : r.committed = some c) hfb (hfb.run _) hsame
      (List.cons_ne_nil centerOrder [gridOrder])
      (rfl : _ = [gridOrder, centerOrder].length) horders horders'
  refine ⟨r, fb, painted, after, rfl, hsetUp, rfl, ?_, hrun, hrun', hcanvas⟩
  intro heq
  have hdepth := congrArg (fun canvas : Canvas => canvas.depth.map (·[0]?)) heq
  exact absurd hdepth (by decide +kernel)

end TileTracer
