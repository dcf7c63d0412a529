import TileTracer.Proofs.BufferHistory

/-!
Histories of a frame buffer with every layout read off the channels, and with guards wherever an
operation relies on its layout. In a history that starts from a new buffer no guard ever fails.
-/

namespace TileTracer

/-- Steps under guard that never fail as long as a condition holds, and keep it. -/
theorem foldlM_guarded {σ β : Type} {P : σ → Prop} {f : σ → β → Option σ} {g : σ → β → σ}
    {l : List β} (hstep : ∀ s, P s → ∀ b ∈ l, f s b = some (g s b) ∧ P (g s b)) {s : σ} (hs : P s) :
    l.foldlM f s = some (l.foldl g s) ∧ P (l.foldl g s) := by
  induction l generalizing s with
  | nil => exact ⟨rfl, hs⟩
  | cons b l ih =>
      obtain ⟨hsome, hnext⟩ := hstep s hs b List.mem_cons_self
      rw [List.foldlM_cons, hsome, Option.bind_eq_bind, Option.bind_some, List.foldl_cons]
      exact ih (fun s hs b hb => hstep s hs b (List.mem_cons_of_mem _ hb)) hnext

theorem ColorStore.Fits.bytes_iff {store : ColorStore} {format : PixelFormat} {n : Nat}
    (hfits : store.Fits format n) :
    (∃ pixels, store = .bytes pixels) ↔ format = .rgba8 ∨ format = .srgba := by
  revert hfits
  cases store <;> cases format <;> simp [ColorStore.Fits]

theorem ColorStore.Fits.size_eq {store : ColorStore} {format : PixelFormat} {n : Nat}
    (hfits : store.Fits format n) : store.size = n := by
  revert hfits
  cases store <;> cases format <;> simp [ColorStore.Fits, ColorStore.size]

theorem Canvas.size_of_channel {β : Type} {channel : Option (Array β)} {present : Bool} {n : Nat}
    (hsize : channel.map Array.size = if present then some n else none) :
    channel.isSome = present ∧ ∀ a, channel = some a → a.size = n := by
  cases present with
  | false =>
      obtain rfl : channel = none := by simpa using hsize
      exact ⟨rfl, nofun⟩
  | true =>
      obtain ⟨a, rfl, ha⟩ := Option.map_eq_some_iff.mp hsize
      refine ⟨rfl, ?_⟩
      rintro b hb
      exact Option.some.inj hb ▸ ha

namespace Stage

/-- Runs the operation on a canvas of a frame; `none` if the frame has another layout than the
operation was attached to, or lacks the depths that the operation reads. -/
def run? (stage : Stage) (layout : Layout) (canvas : Canvas) : Option Canvas :=
  if stage.layout = { layout with channels := canvas.channels } then
    match stage.op with
    | .depth => canvas.depth.map (FrameOp.runDepth canvas)
    | .toneMap exposure => some ((FrameOp.toneMap exposure).run canvas)
  else none

theorem run?_eq {stage : Stage} {layout : Layout} {canvas : Canvas} (hfits : canvas.Fits layout)
    (hlayout : stage.layout = layout) (hop : stage.op.obstacle? layout = none) :
    stage.run? layout canvas = some (stage.op.run canvas) := by
  obtain ⟨op, own⟩ := stage
  obtain rfl : own = layout := hlayout
  rw [run?, if_pos (by rw [hfits.channels_eq])]
  cases op with
  | depth =>
      have hchannel : own.channels.depth = true := by simpa [FrameOp.obstacle?] using hop
      have hdepth : canvas.depth.isSome = true := by
        rw [← hchannel, ← hfits.channels_eq]
        rfl
      obtain ⟨depths, hdepths⟩ := Option.isSome_iff_exists.mp hdepth
      simp [FrameOp.run, hdepths]
  | toneMap exposure => rfl

end Stage

namespace FrameBuffer

/-- Attaches an operation to the layout that the channels show. If it cannot be attached, nothing
changes. -/
def attachToView (fb : FrameBuffer) (op : FrameOp) : FrameBuffer :=
  match op.attach fb.viewLayout with
  | .ok stage => { fb with stages := fb.stages ++ [stage] }
  | .error _ => fb

/-- A blank buffer of a new layout, to which the operations are attached again one by one. -/
def rebuild (fb : FrameBuffer) (layout : Layout) : FrameBuffer :=
  (fb.stages.map (·.op)).foldl attachToView { blank layout fb.tileSize with frames := fb.frames }

def endFrame? (fb : FrameBuffer) : Option FrameBuffer := do
  let canvas ← fb.stages.foldlM (fun canvas stage => stage.run? fb.layout canvas) fb.canvas
  return { fb with canvas, frames := fb.frames + 1 }

/-- Carries a command out under guard; `none` if a guard fails. -/
def guardedStep? (fb : FrameBuffer) : BufferCommand → Option FrameBuffer
  | .resize width height =>
    if width = 0 ∨ height = 0 ∨ (width = fb.layout.width ∧ height = fb.layout.height) then some fb
    else some (fb.rebuild { fb.layout with width, height })
  | .setFormat format =>
    if format = fb.layout.format then some fb else some (fb.rebuild { fb.layout with format })
  | .addOp op => some (fb.attachToView op)
  | .endFrame => fb.endFrame?
  | .render renderer order => match renderer.createJob fb with
    | .ok job => (fb.renderTiles job (order fb)).drawTiles.endFrame?
    | .error _ => some fb
  | command => some (fb.step command)

def guardedRun? (fb : FrameBuffer) (commands : List BufferCommand) : Option FrameBuffer :=
  commands.foldlM guardedStep? fb

theorem foldl_attachToView {fb : FrameBuffer} (hview : fb.viewLayout = fb.layout)
    (ops : List FrameOp) :
    ops.foldl attachToView fb = { fb with stages := fb.stages ++ reattach fb.layout ops } := by
  induction ops generalizing fb with
  | nil => simp [reattach]
  | cons op ops ih =>
      rw [List.foldl_cons, attachToView, hview]
      cases hop : op.attach fb.layout with
      | error e => simp [ih hview, reattach, hop, Except.toOption]
      | ok stage =>
          have hrest : ops.foldl attachToView { fb with stages := fb.stages ++ [stage] } = _ :=
            ih hview
          dsimp only at hrest ⊢
          rw [hrest]
          simp [reattach, hop, Except.toOption]

theorem rebuild_eq (fb : FrameBuffer) (layout : Layout) : fb.rebuild layout = fb.relayout layout := by
  have hview : viewLayout { blank layout fb.tileSize with frames := fb.frames } = layout :=
    congrArg (fun channels => { layout with channels }) (Canvas.blank_fits layout).channels_eq
  exact (foldl_attachToView hview _).trans rfl

theorem setLayout_eq (fb : FrameBuffer) (layout : Layout) :
    (fb.setLayout layout).1 = if layout = fb.layout then fb else fb.rebuild layout := by
  rw [setLayout, rebuild_eq]
  split <;> rfl

section WellFormed

variable {fb : FrameBuffer} (h : fb.WellFormed)

include h

theorem WellFormed.endFrame?_eq : fb.endFrame? = some fb.endFrame := by
  have hstage : ∀ canvas, Canvas.Fits canvas fb.layout → ∀ stage ∈ fb.stages,
      stage.run? fb.layout canvas = some (stage.op.run canvas) ∧
        (stage.op.run canvas).Fits fb.layout := by
    intro canvas hcanvas stage hstage
    obtain ⟨hlayout, hop⟩ := h.stages stage hstage
    exact ⟨stage.run?_eq hcanvas hlayout hop, stage.op.run_fits hcanvas⟩
  rw [endFrame?, (foldlM_guarded hstage h.canvas).1]
  rfl

theorem WellFormed.guardedStep?_eq (command : BufferCommand) :
    fb.guardedStep? command = some (fb.step command) := by
  cases command with
  | resize width height =>
      have hsame : ({ fb.layout with width, height } : Layout) = fb.layout ↔
          width = fb.layout.width ∧ height = fb.layout.height := by
        rw [Layout.mk.injEq]
        simp
      unfold guardedStep? FrameBuffer.step FrameBuffer.resize
      by_cases hsize : width = 0 ∨ height = 0
      · have hrefused : (width = 0 || height = 0) = true := by simpa using hsize
        simp only [← or_assoc, hsize, hrefused, true_or, if_true]
      · have hallowed : (width = 0 || height = 0) = false := by simpa using hsize
        simp only [← or_assoc, hsize, hallowed, false_or, Bool.false_eq_true, if_false,
          setLayout_eq, hsame]
        split <;> rfl
  | setFormat format =>
      have hsame : ({ fb.layout with format } : Layout) = fb.layout ↔ format = fb.layout.format := by
        rw [Layout.mk.injEq]
        simp
      unfold guardedStep? FrameBuffer.step FrameBuffer.setFormat
      simp only [setLayout_eq, hsame]
      split <;> rfl
  | addOp op =>
      unfold guardedStep? FrameBuffer.step attachToView FrameBuffer.addOp
      dsimp only
      rw [h.viewLayout_eq]
      cases op.attach fb.layout <;> rfl
  | clearOps => rfl
  | resetAccumulation => rfl
  | tile i command => rfl
  | write values => rfl
  | drawTiles => rfl
  | endFrame => exact h.endFrame?_eq
  | render renderer order =>
      unfold guardedStep? FrameBuffer.step Renderer.renderFrame
      dsimp only
      cases renderer.createJob fb with
      | error e => rfl
      | ok job => exact (h.renderTiles job (order fb)).drawTiles.endFrame?_eq

theorem WellFormed.guardedRun?_eq (commands : List BufferCommand) :
    fb.guardedRun? commands = some (fb.run commands) :=
  (foldlM_guarded (fun _ hfb command _ => ⟨hfb.guardedStep?_eq command, hfb.step command⟩) h).1

end WellFormed

end FrameBuffer

end TileTracer
