import TileTracer.Proofs.LayoutChanges
import TileTracer.Proofs.SessionCounters
import TileTracer.Proofs.WorkInPlace

/-!
The commands of a frame buffer as work that changes it in place, one field after the other. A
failure does not undo what was done before it; but a command that fails does so before it has
changed anything.
-/

namespace TileTracer

/-- Work on a frame buffer in place. A failure leaves the buffer as it is then. -/
abbrev InPlace := ExceptT RenderError (StateM FrameBuffer)

namespace InPlace

def runOn {β : Type} (work : InPlace β) (fb : FrameBuffer) : Except RenderError β × FrameBuffer :=
  work.run.run fb

def addOp (op : FrameOp) : InPlace Unit := do
  let fb ← get
  match op.attach fb.viewLayout with
  | .ok stage => modify fun fb => { fb with stages := fb.stages ++ [stage] }
  | .error cause => throw cause

def tryOp (op : FrameOp) : InPlace Unit := tryCatch (addOp op) fun _ => pure ()

/-- Makes channels and tiles anew for the layout and attaches the operations again. -/
def rebuild : InPlace Unit := do
  modify fun fb => { fb with canvas := .blank fb.layout }
  modify fun fb => { fb with tiles := FrameBuffer.coverTiles fb.layout fb.tileSize }
  let fb ← get
  modify FrameBuffer.clearOps
  fb.ops.forM tryOp

def resize (width height : Nat) : InPlace Unit := do
  if width = 0 ∨ height = 0 then throw (.invalidSize width height)
  else
    let fb ← get
    if width = fb.layout.width ∧ height = fb.layout.height then pure ()
    else
      modify fun fb => { fb with layout := { fb.layout with width } }
      modify fun fb => { fb with layout := { fb.layout with height } }
      rebuild

def setFormat (format : PixelFormat) : InPlace Unit := do
  let fb ← get
  if format = fb.layout.format then pure ()
  else
    modify fun fb => { fb with layout := { fb.layout with format } }
    rebuild

def render (renderer : Renderer) (order : FrameBuffer → List Nat) : InPlace Unit := do
  let fb ← get
  match renderer.createJob fb with
  | .ok job =>
    (order fb).forM fun i => modify fun fb => fb.renderTile job i
    modify FrameBuffer.drawTiles
    modify FrameBuffer.endFrame
  | .error cause => throw cause

def perform : BufferCommand → InPlace Unit
  | .resize width height => resize width height
  | .setFormat format => setFormat format
  | .addOp op => addOp op
  | .render renderer order => render renderer order
  | command => modify fun fb => fb.step command

variable {β : Type} {fb : FrameBuffer}

theorem runOn_tryCatch (work : InPlace β) (handle : RenderError → InPlace β) (fb : FrameBuffer) :
    runOn (tryCatch work handle) fb = match runOn work fb with
      | (.ok b, after) => (.ok b, after)
      | (.error cause, after) => runOn (handle cause) after := by
  unfold runOn ExceptT.run
  simp only [tryCatch, tryCatchThe, MonadExceptOf.tryCatch, ExceptT.tryCatch, ExceptT.mk,
    StateT.run_bind]
  rcases StateT.run work fb with ⟨_ | _, _⟩ <;> rfl

theorem runOn_forM {work : β → InPlace Unit} {change : FrameBuffer → β → FrameBuffer}
    (hwork : ∀ b fb, runOn (work b) fb = (.ok (), change fb b)) (l : List β) (fb : FrameBuffer) :
    runOn (l.forM work) fb = (.ok (), l.foldl change fb) := by
  induction l generalizing fb with
  | nil => rfl
  | cons b l ih => exact (WorkInPlace.run_bind_of_ok (hwork b fb) fun _ => l.forM work).trans (ih _)

theorem runOn_addOp (op : FrameOp) (fb : FrameBuffer) :
    runOn (addOp op) fb = match op.attach fb.viewLayout with
      | .ok stage => (.ok (), { fb with stages := fb.stages ++ [stage] })
      | .error cause => (.error cause, fb) := by
  have hstart : runOn (addOp op) fb = runOn (match op.attach fb.viewLayout with
      | .ok stage => modify fun fb => { fb with stages := fb.stages ++ [stage] }
      | .error cause => throw cause) fb := rfl
  rw [hstart]
  cases op.attach fb.viewLayout <;> rfl

theorem runOn_tryOp (op : FrameOp) (fb : FrameBuffer) :
    runOn (tryOp op) fb = (.ok (), fb.attachToView op) := by
  rw [tryOp, runOn_tryCatch, runOn_addOp, FrameBuffer.attachToView]
  cases op.attach fb.viewLayout <;> rfl

theorem runOn_rebuild (htileSize : 0 < fb.tileSize) :
    runOn rebuild fb = (.ok (), fb.relayout fb.layout) := by
  have hsize : max fb.tileSize 1 = fb.tileSize := Nat.max_eq_left htileSize
  have hloop : runOn rebuild fb = runOn (fb.ops.forM tryOp)
      { fb with
        canvas := .blank fb.layout
        tiles := FrameBuffer.coverTiles fb.layout fb.tileSize
        stages := [] } := rfl
  rw [hloop, runOn_forM runOn_tryOp, ← FrameBuffer.rebuild_eq, FrameBuffer.rebuild,
    FrameBuffer.blank, hsize]
  rfl

end InPlace

namespace FrameBuffer

open InPlace (runOn perform)

/-- What keeps a command from being carried out. -/
def refusal? (fb : FrameBuffer) : BufferCommand → Option RenderError
  | .resize width height =>
    if width = 0 ∨ height = 0 then some (.invalidSize width height) else none
  | .addOp op => op.obstacle? fb.layout
  | .render renderer _ =>
    if renderer.committed.isNone then some (.notCommitted Renderer.typeName) else none
  | _ => none

variable {fb : FrameBuffer}

theorem runOn_rebuild_layout (htileSize : 0 < fb.tileSize) {layout : Layout}
    (hother : layout ≠ fb.layout) :
    runOn InPlace.rebuild { fb with layout } = (.ok (), (fb.setLayout layout).1) := by
  have hrun : runOn InPlace.rebuild { fb with layout } = (.ok (), fb.relayout layout) :=
    InPlace.runOn_rebuild htileSize
  rw [hrun, setLayout, if_neg hother]

theorem runOn_resize (htileSize : 0 < fb.tileSize) {width height : Nat}
    (hsize : ¬(width = 0 ∨ height = 0)) :
    runOn (InPlace.resize width height) fb =
      (.ok (), (fb.setLayout { fb.layout with width, height }).1) := by
  rw [InPlace.resize, if_neg hsize]
  by_cases hsame : width = fb.layout.width ∧ height = fb.layout.height
  · obtain ⟨rfl, rfl⟩ := hsame
    rw [setLayout, if_pos rfl]
    refine (WorkInPlace.run_bind_of_ok rfl _).trans ?_
    rw [if_pos ⟨rfl, rfl⟩]
    rfl
  · have hother : ({ fb.layout with width, height } : Layout) ≠ fb.layout := fun h =>
      hsame ⟨congrArg Layout.width h, congrArg Layout.height h⟩
    refine (WorkInPlace.run_bind_of_ok rfl _).trans ?_
    rw [if_neg hsame]
    -- Nothing is made anew before both dimensions are set, so that it is one change of the layout.
    exact runOn_rebuild_layout htileSize hother

theorem runOn_setFormat (htileSize : 0 < fb.tileSize) (format : PixelFormat) :
    runOn (InPlace.setFormat format) fb = (.ok (), (fb.setFormat format).1) := by
  rw [FrameBuffer.setFormat]
  refine (WorkInPlace.run_bind_of_ok rfl _).trans ?_
  by_cases hsame : format = fb.layout.format
  · subst hsame
    rw [if_pos rfl, setLayout, if_pos rfl]
    rfl
  · rw [if_neg hsame]
    exact runOn_rebuild_layout htileSize fun h => hsame (congrArg Layout.format h)

theorem runOn_render (renderer : Renderer) (order : FrameBuffer → List Nat) (fb : FrameBuffer) :
    runOn (InPlace.render renderer order) fb = match renderer.renderFrame order fb with
      | .ok after => (.ok (), after)
      | .error cause => (.error cause, fb) := by
  refine (WorkInPlace.run_bind_of_ok rfl _).trans ?_
  rw [Renderer.renderFrame]
  cases renderer.createJob fb with
  | error cause => rfl
  | ok job =>
      exact WorkInPlace.run_bind_of_ok
        (InPlace.runOn_forM (fun i fb => show runOn _ fb = (.ok (), fb.renderTile job i) from rfl)
          (order fb) fb) _

/-- A command carried out in place is refused before it changes anything, or has the effect of the
step. -/
theorem WellFormed.runOn_perform (h : fb.WellFormed) (command : BufferCommand) :
    runOn (perform command) fb = match fb.refusal? command with
      | some cause => (.error cause, fb)
      | none => (.ok (), fb.step command) := by
  cases command with
  | resize width height =>
      have hrefusal : fb.refusal? (.resize width height) =
          if width = 0 ∨ height = 0 then some (.invalidSize width height) else none := rfl
      rw [hrefusal]
      by_cases hsize : width = 0 ∨ height = 0
      · rw [perform, InPlace.resize, if_pos hsize, if_pos hsize]
        rfl
      · have hallowed : ¬(width = 0 || height = 0) = true := by simpa using hsize
        rw [perform, runOn_resize h.tileSize_pos hsize, if_neg hsize, FrameBuffer.step,
          FrameBuffer.resize, if_neg hallowed]
  | setFormat format => exact runOn_setFormat h.tileSize_pos format
  | addOp op =>
      rw [perform, InPlace.runOn_addOp, h.viewLayout_eq, refusal?, FrameBuffer.step,
        FrameBuffer.addOp, FrameOp.attach]
      cases op.obstacle? fb.layout <;> rfl
  | render renderer order =>
      rw [perform, runOn_render, refusal?, FrameBuffer.step, Renderer.renderFrame,
        Renderer.createJob_eq]
      cases renderer.committed <;> rfl
  | clearOps => rfl
  | resetAccumulation => rfl
  | tile i command => rfl
  | write values => rfl
  | drawTiles => rfl
  | endFrame => rfl

end FrameBuffer

theorem Studio.NoneBinds.committed_eq_none {ι : Type} [DecidableEq ι] {i : ι}
    {history : List (RendererCommand ι)} (h : NoneBinds i [] history) (settings : ι → Settings)
    (palettes : ι → Palette) (counter : GenerationCounter) :
    (((fresh settings palettes counter).run history).renderers i).committed = none := by
  have hlast := run_fresh_lastCommit settings palettes counter history i
  cases hcommitted : (((fresh settings palettes counter).run history).renderers i).committed with
  | none => rfl
  | some c =>
      rw [hcommitted] at hlast
      obtain ⟨before, after, rfl, hbinding, _⟩ := hlast
      obtain ⟨e, he⟩ := h before after rfl
      rw [List.nil_append, hbinding] at he
      cases he

theorem FrameOp.obstacle?_eq_none_iff (op : FrameOp) (layout : Layout) :
    op.obstacle? layout = none ↔
      (op.name = "frame_depth" ∧ layout.channels.depth = true) ∨
        (op.name = "frame_tonemap" ∧ layout.format = .rgba32f) := by
  cases op with
  | depth => simp [obstacle?, name, kind, FrameOpKind.name]
  | toneMap exposure => simp [obstacle?, name, kind, FrameOpKind.name]

namespace FrameBuffer

open InPlace (runOn perform)
open Studio (fresh NoneBinds)

theorem addOp_eq_ok_iff {fb after : FrameBuffer} {op : FrameOp} :
    fb.addOp op = .ok after ↔ op.obstacle? fb.layout = none ∧
      { fb with stages := fb.stages ++ [⟨op, fb.layout⟩] } = after := by
  rw [addOp, FrameOp.attach]
  cases op.obstacle? fb.layout with
  | some cause =>
      constructor
      · intro hadded
        cases hadded
      · rintro ⟨hfree, _⟩
        cases hfree
  | none =>
      constructor
      · intro hadded
        exact ⟨rfl, Except.ok.inj hadded⟩
      · rintro ⟨_, rfl⟩
        rfl

/-- Whatever command is carried out on a frame buffer in place, it either fails and the buffer is as
it was before, or it has the effect of the step. A size without pixels is refused, as are operations
that cannot be attached and renderers that have never committed. An operation is attached exactly if
the depth channel is there that it reads or the format is the one that it maps, and then it only
stands behind the others. -/
theorem Reachable.refused_unchanged {fb : FrameBuffer} (hreachable : fb.Reachable) :
    (∀ command, (∃ cause, runOn (perform command) fb = (.error cause, fb)) ∨
      runOn (perform command) fb = (.ok (), fb.step command)) ∧
    (∀ width height, width = 0 ∨ height = 0 →
      fb.resize width height = .error (.invalidSize width height) ∧
      runOn (perform (.resize width height)) fb = (.error (.invalidSize width height), fb)) ∧
    (∀ op cause, op.attach fb.viewLayout = .error cause →
      fb.addOp op = .error cause ∧ runOn (perform (.addOp op)) fb = (.error cause, fb)) ∧
    (∀ {ι : Type} [DecidableEq ι] (settings : ι → Settings) (palettes : ι → Palette) counter
      history i renderer order,
      renderer = ((fresh settings palettes counter).run history).renderers i →
      NoneBinds i [] history →
      renderer.renderFrame order fb = .error (.notCommitted Renderer.typeName) ∧
      runOn (perform (.render renderer order)) fb =
        (.error (.notCommitted Renderer.typeName), fb)) ∧
    ∀ op, ((∃ after, fb.addOp op = .ok after) ↔
        (op.name = "frame_depth" ∧ fb.layout.channels.depth = true) ∨
          (op.name = "frame_tonemap" ∧ fb.layout.format = .rgba32f)) ∧
      ∀ after, fb.addOp op = .ok after →
        after = { fb with stages := fb.stages ++ [⟨op, fb.layout⟩] } ∧
        runOn (perform (.addOp op)) fb = (.ok (), after) := by
  have h := hreachable.wellFormed
  refine ⟨?_, ?_, ?_, ?_, ?_⟩
  · intro command
    rw [h.runOn_perform]
    cases fb.refusal? command with
    | some cause => exact .inl ⟨cause, rfl⟩
    | none => exact .inr rfl
  · intro width height hsize
    have hrefused : (width = 0 || height = 0) = true := by simpa using hsize
    rw [h.runOn_perform, refusal?, if_pos hsize, resize, if_pos hrefused]
    exact ⟨rfl, rfl⟩
  · intro op cause hattach
    rw [perform, InPlace.runOn_addOp, hattach, FrameBuffer.addOp, ← h.viewLayout_eq, hattach]
    exact ⟨rfl, rfl⟩
  · rintro ι _ settings palettes counter history i renderer order rfl hnone
    have hcommitted := hnone.committed_eq_none settings palettes counter
    rw [h.runOn_perform, refusal?, hcommitted]
    exact ⟨Renderer.renderFrame_of_none hcommitted order fb, rfl⟩
  · intro op
    rw [← FrameOp.obstacle?_eq_none_iff]
    refine ⟨by simp only [addOp_eq_ok_iff, exists_and_left, exists_eq', and_true],
      fun after hafter => ?_⟩
    obtain ⟨hfree, hadded⟩ := addOp_eq_ok_iff.mp hafter
    rw [h.runOn_perform, refusal?, hfree, FrameBuffer.step, hafter]
    exact ⟨hadded.symm, rfl⟩

theorem Reachable.refused_unchanged_in_use :
    ∃ (fb : FrameBuffer) (renderer : Renderer), fb.Reachable ∧
      fb.layout = ⟨3, 2, .srgba, ⟨true, false, false⟩⟩ ∧ fb.opNames = ["frame_depth"] ∧
      fb.frames = 1 ∧
      renderer.params.contains "camera" = true ∧
      runOn (perform (.resize 5 0)) fb = (.error (.invalidSize 5 0), fb) ∧
      runOn (perform (.addOp (.toneMap 2.0))) fb =
        (.error (.unsupportedFormat "frame_tonemap" .srgba), fb) ∧
      runOn (perform (.render renderer gridOrder)) fb =
        (.error (.notCommitted "pathtracer"), fb) ∧
      ∃ after, fb.addOp .depth = .ok after ∧
        after = { fb with stages := fb.stages ++ [⟨.depth, fb.layout⟩] } ∧
        runOn (perform (.addOp .depth)) fb = (.ok (), after) := by
  let layout : Layout := ⟨3, 2, .srgba, ⟨true, false, false⟩⟩
  let fb : FrameBuffer := (blank layout 2).run
    [.addOp .depth, .write (.depth #[3.0, 1.0]), .tile 0 (.endPass 4), .endFrame]
  have hreachable : fb.Reachable := ⟨layout, 2, _, _, rfl, rfl⟩
  have hview : fb.viewLayout = layout := hreachable.wellFormed.viewLayout_eq
  let history : List (RendererCommand Bool) :=
    [.setParam false "camera" (.camera .default), .commit false]
  have hnone : NoneBinds false [] history := by
    intro passed rest hsplit
    rcases passed with _ | ⟨first, _ | ⟨second, passed⟩⟩
    · simp [history] at hsplit
    · obtain ⟨rfl, _⟩ : _ = first ∧ _ := by simpa [history] using hsplit
      exact ⟨_, rfl⟩
    · simp [history] at hsplit
  obtain ⟨_, hresize, hattach, hrender, hops⟩ := hreachable.refused_unchanged
  obtain ⟨after, hafter⟩ := (hops .depth).1.mpr (.inl ⟨rfl, rfl⟩)
  exact ⟨fb, _, hreachable, rfl, rfl, rfl, rfl,
    (hresize 5 0 (.inr rfl)).2, (hattach (.toneMap 2.0) _ (by rw [hview]; rfl)).2,
    (hrender (fun _ => .default) (fun _ => .empty) .first history false _ gridOrder rfl hnone).2,
    after, hafter, (hops .depth).2 after hafter⟩

end FrameBuffer

end TileTracer
