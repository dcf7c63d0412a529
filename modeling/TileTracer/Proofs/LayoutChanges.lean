import TileTracer.Proofs.GuardedHistory

namespace TileTracer

inductive LayoutChange where
  | resize (width height : Nat)
  | setFormat (format : PixelFormat)

namespace LayoutChange

def command : LayoutChange → BufferCommand
  | resize width height => .resize width height
  | setFormat format => .setFormat format

/-- Whether an attached operation is still attached after the change. -/
def keeps : LayoutChange → FrameOp → Bool
  | resize _ _, _ => true
  | setFormat format, op => op.kind = .depth || format = .rgba32f

end LayoutChange

namespace FrameOp

/-- Where the depth operation has its channel, only the format decides what can be attached. -/
theorem attach_isOk_eq {op : FrameOp} {layout : Layout}
    (hchannel : op.kind = .depth → layout.channels.depth = true) :
    (op.attach layout).isOk = (op.kind = .depth || layout.format = .rgba32f : Bool) := by
  unfold attach
  cases op with
  | depth => simp [obstacle?, kind, hchannel rfl, Except.isOk, Except.toBool]
  | toneMap exposure =>
      by_cases hformat : layout.format = .rgba32f <;>
        simp [obstacle?, kind, hformat, Except.isOk, Except.toBool]

theorem channel_of_obstacle?_eq_none {op : FrameOp} {layout : Layout}
    (hop : op.obstacle? layout = none) : op.kind = .depth → layout.channels.depth = true := by
  intro hkind
  cases op with
  | depth => simpa [obstacle?] using hop
  | toneMap exposure => cases hkind

end FrameOp

namespace FrameBuffer

def ops (fb : FrameBuffer) : List FrameOp := fb.stages.map (·.op)

/-- The buffer is a new one of a layout, with the tile size and the frame counter of another buffer
and with those of its operations that can be attached to the layout. -/
def Renews (after before : FrameBuffer) (layout : Layout) : Prop :=
  ∃ fresh, create layout before.tileSize = .ok fresh ∧
    after = { fresh with
      stages := (before.ops.filter fun op => (op.attach layout).isOk).map (⟨·, layout⟩)
      frames := before.frames }

theorem reattach_eq (layout : Layout) (ops : List FrameOp) :
    reattach layout ops = (ops.filter fun op => (op.attach layout).isOk).map (⟨·, layout⟩) := by
  induction ops with
  | nil => rfl
  | cons op ops ih =>
      have hrest : reattach layout (op :: ops) =
          ((op.attach layout).toOption.toList ++ reattach layout ops) := by
        unfold reattach
        rw [List.filterMap_cons]
        cases (op.attach layout).toOption <;> rfl
      rw [hrest, ih, List.filter_cons]
      unfold FrameOp.attach
      cases op.obstacle? layout <;> rfl

theorem setLayout_renews {fb : FrameBuffer} {layout : Layout} (hother : layout ≠ fb.layout)
    (hwidth : layout.width ≠ 0) (hheight : layout.height ≠ 0) :
    (fb.setLayout layout).1.Renews fb layout := by
  refine ⟨blank layout fb.tileSize, ?_, ?_⟩
  · simp [create, hwidth, hheight]
  · rw [setLayout, if_neg hother]
    dsimp only
    rw [relayout, reattach_eq]
    rfl

theorem relayout_ops (fb : FrameBuffer) (layout : Layout) :
    (fb.relayout layout).ops = fb.ops.filter fun op => (op.attach layout).isOk := by
  have hstages : (fb.relayout layout).stages = reattach layout fb.ops := rfl
  rw [ops, hstages, reattach_eq, List.map_map]
  exact List.map_id' _

section WellFormed

variable {fb : FrameBuffer} (h : fb.WellFormed)

include h

theorem WellFormed.obstacle?_of_mem {op : FrameOp} (hop : op ∈ fb.ops) :
    op.obstacle? fb.layout = none := by
  obtain ⟨stage, hstage, rfl⟩ := List.mem_map.mp hop
  exact (h.stages stage hstage).2

theorem WellFormed.setLayout_ops {layout : Layout}
    (hchannels : layout.channels = fb.layout.channels) :
    (fb.setLayout layout).1.ops =
      fb.ops.filter fun op => op.kind = .depth || layout.format = .rgba32f := by
  have hsupported : ∀ op ∈ fb.ops, (op.attach layout).isOk =
      (op.kind = .depth || layout.format = .rgba32f : Bool) := by
    intro op hop
    apply FrameOp.attach_isOk_eq
    rw [hchannels]
    exact FrameOp.channel_of_obstacle?_eq_none (h.obstacle?_of_mem hop)
  rw [← List.filter_congr hsupported]
  unfold FrameBuffer.setLayout
  split
  · rename_i hsame
    rw [hsame]
    refine (List.filter_eq_self.mpr fun op hop => ?_).symm
    rw [FrameOp.attach, h.obstacle?_of_mem hop]
    rfl
  · exact fb.relayout_ops layout

theorem WellFormed.setLayout_ops_of_format_eq {layout : Layout}
    (hchannels : layout.channels = fb.layout.channels)
    (hformat : layout.format = fb.layout.format) :
    (fb.setLayout layout).1.ops = fb.ops := by
  rw [h.setLayout_ops hchannels, hformat]
  refine List.filter_eq_self.mpr fun op hop => ?_
  have hop := h.obstacle?_of_mem hop
  rw [← FrameOp.attach_isOk_eq (FrameOp.channel_of_obstacle?_eq_none hop), FrameOp.attach, hop]
  rfl

theorem WellFormed.change_ops (change : LayoutChange) :
    (fb.step change.command).ops = fb.ops.filter change.keeps := by
  cases change with
  | resize width height =>
      have hkept : fb.ops.filter (LayoutChange.resize width height).keeps = fb.ops :=
        List.filter_eq_self.mpr fun _ _ => rfl
      rw [hkept, LayoutChange.command, FrameBuffer.step, resize]
      by_cases hsize : (width = 0 || height = 0) = true
      · rw [if_pos hsize]
      · rw [if_neg hsize]
        exact h.setLayout_ops_of_format_eq rfl rfl
  | setFormat format => exact h.setLayout_ops rfl

/-- Over a sequence of changes an operation stays attached as long as each of them keeps it. -/
theorem WellFormed.changes_ops (changes : List LayoutChange) :
    (fb.run (changes.map LayoutChange.command)).ops =
      fb.ops.filter fun op => changes.all (·.keeps op) := by
  induction changes generalizing fb with
  | nil => exact (List.filter_eq_self.mpr fun _ _ => rfl).symm
  | cons change changes ih =>
      have hrest := ih (h.step change.command)
      rw [h.change_ops, List.filter_filter] at hrest
      refine hrest.trans (List.filter_congr fun op _ => ?_)
      rw [List.all_cons, Bool.and_comm]

theorem WellFormed.resize_renews {width height : Nat} (hwidth : width ≠ 0) (hheight : height ≠ 0)
    (hother : width ≠ fb.layout.width ∨ height ≠ fb.layout.height) :
    ∃ after events, fb.resize width height = .ok (after, events) ∧
      fb.guardedStep? (.resize width height) = some after ∧
      after.Renews fb { fb.layout with width, height } ∧ after.ops = fb.ops := by
  let layout : Layout := { fb.layout with width, height }
  have hlayout : layout ≠ fb.layout := by
    intro hsame
    exact hother.elim (· (congrArg Layout.width hsame)) (· (congrArg Layout.height hsame))
  have hallowed : ¬(width = 0 || height = 0) = true := by simp [hwidth, hheight]
  have hresize : fb.resize width height = .ok (fb.setLayout layout) := if_neg hallowed
  refine ⟨(fb.setLayout layout).1, (fb.setLayout layout).2, hresize, ?_,
    setLayout_renews hlayout hwidth hheight, h.setLayout_ops_of_format_eq rfl rfl⟩
  rw [h.guardedStep?_eq, FrameBuffer.step, hresize]

theorem WellFormed.setFormat_renews {format : PixelFormat} (hother : format ≠ fb.layout.format) :
    ∃ after events, fb.setFormat format = (after, events) ∧
      fb.guardedStep? (.setFormat format) = some after ∧
      after.Renews fb { fb.layout with format } ∧
      after.ops = if format = .rgba32f then fb.ops else fb.ops.filter (·.kind ≠ .toneMap) := by
  let layout : Layout := { fb.layout with format }
  have hlayout : layout ≠ fb.layout := fun hsame => hother (congrArg Layout.format hsame)
  refine ⟨(fb.setLayout layout).1, (fb.setLayout layout).2, rfl, h.guardedStep?_eq _,
    setLayout_renews hlayout (Nat.ne_of_gt h.width_pos) (Nat.ne_of_gt h.height_pos), ?_⟩
  rw [show (fb.setLayout layout).1.ops = _ from h.setLayout_ops rfl]
  split
  · rename_i hfloat
    exact List.filter_eq_self.mpr fun _ _ => by simp [layout, hfloat]
  · rename_i hbytes
    refine List.filter_congr fun op _ => ?_
    cases op <;> simp [FrameOp.kind, layout, hbytes]

end WellFormed

/-- At any point of a sequence of changes, a change to another layout gives a new buffer with the
old frame counter and the operations that it supports, attached one by one; a change to the present
layout gives the same buffer. Only tone mapping is dropped, only for bytes, and it stays dropped. -/
theorem Reachable.layoutChange_renews {fb before : FrameBuffer} (hreachable : fb.Reachable)
    {changes : List LayoutChange} (hrun : fb.run (changes.map LayoutChange.command) = before) :
    (∀ width height, width ≠ 0 → height ≠ 0 →
      (width ≠ before.layout.width ∨ height ≠ before.layout.height) →
      ∃ after events, before.resize width height = .ok (after, events) ∧
        before.guardedStep? (.resize width height) = some after ∧
        after.Renews before { before.layout with width, height } ∧ after.ops = before.ops) ∧
    (∀ format, format ≠ before.layout.format →
      ∃ after events, before.setFormat format = (after, events) ∧
        before.guardedStep? (.setFormat format) = some after ∧
        after.Renews before { before.layout with format } ∧
        after.ops =
          if format = .rgba32f then before.ops else before.ops.filter (·.kind ≠ .toneMap)) ∧
    before.resize before.layout.width before.layout.height = .ok (before, []) ∧
    before.setFormat before.layout.format = (before, []) ∧
    (before.ops = fb.ops.filter fun op => changes.all (·.keeps op)) ∧
    before.ops.filter (·.kind = .depth) = fb.ops.filter (·.kind = .depth) ∧
    ∀ more : List LayoutChange,
      (before.run (more.map LayoutChange.command)).ops.Sublist before.ops := by
  have hops := hreachable.wellFormed.changes_ops changes
  have h := hreachable.wellFormed.run (changes.map LayoutChange.command)
  rw [hrun] at hops h
  refine ⟨fun _ _ => h.resize_renews, fun _ => h.setFormat_renews, ?_, ?_, hops, ?_, ?_⟩
  · have hallowed : ¬(before.layout.width = 0 || before.layout.height = 0) = true := by
      simp [Nat.ne_of_gt h.width_pos, Nat.ne_of_gt h.height_pos]
    rw [resize, if_neg hallowed, setLayout, if_pos rfl]
  · rw [setFormat, setLayout, if_pos rfl]
  · rw [hops, List.filter_filter]
    refine List.filter_congr fun op _ => ?_
    by_cases hdepth : op.kind = .depth
    · have hkept : ∀ change ∈ changes, change.keeps op = true := by
        rintro (_ | _) _ <;> simp [LayoutChange.keeps, hdepth]
      simp [hdepth, List.all_eq_true.mpr hkept]
    · simp [hdepth]
  · intro more
    rw [h.changes_ops more]
    exact List.filter_sublist

theorem Reachable.layoutChange_renews_tone_mapped :
    ∃ fb before after : FrameBuffer, fb.Reachable ∧
      fb.ops = [.toneMap 0.5, .depth, .toneMap 2.0, .depth] ∧
      fb.run ([.resize 5 2, .resize 0 9, .setFormat .rgba32f].map LayoutChange.command) = before ∧
      before.layout = ⟨5, 2, .rgba32f, ⟨true, true, false⟩⟩ ∧ before.ops = fb.ops ∧
      (before.setFormat .srgba).1 = after ∧
      after.Renews before ⟨5, 2, .srgba, ⟨true, true, false⟩⟩ ∧
      after.ops = [.depth, .depth] ∧ after.frames = 1 ∧
      ∀ more : List LayoutChange,
        (before.run (more.map LayoutChange.command)).ops.Sublist before.ops := by
  let layout : Layout := ⟨4, 3, .rgba32f, ⟨true, true, false⟩⟩
  let fb : FrameBuffer := (blank layout 2).run
    [.addOp (.toneMap 0.5), .addOp .depth, .addOp (.toneMap 2.0), .addOp .depth, .endFrame]
  have hreachable : fb.Reachable := ⟨layout, 2, _, _, rfl, rfl⟩
  have hops : fb.ops = [.toneMap 0.5, .depth, .toneMap 2.0, .depth] := rfl
  let before := fb.run ([.resize 5 2, .resize 0 9, .setFormat .rgba32f].map LayoutChange.command)
  have hlayout : before.layout = ⟨5, 2, .rgba32f, ⟨true, true, false⟩⟩ := rfl
  obtain ⟨_, hformat, _, _, hkept, _, hmore⟩ :=
    hreachable.layoutChange_renews (rfl : _ = before)
  obtain ⟨after, events, hafter, _, hrenews, hdropped⟩ := hformat .srgba (by rw [hlayout]; decide)
  rw [hops] at hkept
  rw [hkept] at hdropped
  have hframes : (before.setFormat .srgba).1.frames = 1 := rfl
  rw [hafter] at hframes
  exact ⟨fb, before, after, hreachable, hops, rfl, hlayout, hkept.trans hops.symm,
    congrArg Prod.fst hafter, hrenews, hdropped, hframes, hmore⟩

end FrameBuffer

end TileTracer
