import TileTracer.Command.Run
import TileTracer.Proofs.LayoutChanges

namespace TileTracer

theorem bind_eq_ok {ε α β : Type} {x : Except ε α} {f : α → Except ε β} {b : β} :
    x >>= f = .ok b ↔ ∃ a, x = .ok a ∧ f a = .ok b := by
  cases x <;> simp [bind, Except.bind]

theorem mapError_eq_ok {ε ε' α : Type} {x : Except ε α} {f : ε → ε'} {a : α} :
    x.mapError f = .ok a ↔ x = .ok a := by
  cases x <;> simp [Except.mapError]

theorem Settings.countOf_ofNat (n least : UInt32) :
    countOf (.ofNat n.toNat) (.ofNat least.toNat) = max n least := by
  have hword (k : UInt32) : (Int64.ofNat k.toNat).toInt = k.toNat :=
    Int64.toInt_ofNat_of_lt (by have := k.toNat_lt; omega)
  have hle : Int64.ofNat n.toNat ≤ .ofNat least.toNat ↔ n ≤ least := by
    rw [Int64.le_iff_toInt_le, hword, hword, UInt32.le_iff_toNat_le, Int.ofNat_le]
  have hback (k : UInt32) : (Int64.ofNat k.toNat).toUInt64.toUInt32 = k := by
    rw [Int64.toUInt64_ofNat', UInt64.toUInt32_ofNat', UInt32.ofNat_toNat]
  change (if _ then _ else _ : Int64).toUInt64.toUInt32 = if n ≤ least then least else n
  simp only [hle]
  split <;> exact hback _

namespace Config

variable (c : Config) (images : String → Option Bitmap)

/-! ## Settings -/

/-- The settings that a configuration asks for, with the backplate that its path leads to. -/
def settings : Settings where
  maxDepth := c.maxDepth
  minContribution := c.minContribution
  epsilon := c.epsilon
  samplesPerPixel := max c.samplesPerPixel 1
  backplate := (c.backplate.bind images).map .ofBitmap

theorem rendererParams_get? (key : String) :
    c.rendererParams.get? key =
      if key = "backplate" then c.backplate.map .text
      else if key = "spp" then some (.int (.ofNat c.samplesPerPixel.toNat))
      else if key = "epsilon" then some (.float c.epsilon)
      else if key = "min_contribution" then some (.float c.minContribution)
      else if key = "max_depth" then some (.int (.ofNat c.maxDepth.toNat))
      else none := by
  unfold rendererParams
  cases c.backplate with
  | none =>
      simp only [Table.ofList, List.foldl_cons, List.foldl_nil, Table.get?_set, Table.get?_empty]
      rcases eq_or_ne key "backplate" with rfl | hkey
      · rfl
      · rw [if_neg hkey]
  | some path =>
      simp only [Table.ofList, List.foldl_cons, List.foldl_nil, Table.get?_set, Table.get?_empty]
      rfl

theorem backplateOf_eq_ok {backplate : Option Backplate} :
    Settings.backplateOf images c.rendererParams = .ok backplate ↔
      (∀ path, c.backplate = some path → (images path).isSome) ∧
        backplate = (c.backplate.bind images).map .ofBitmap := by
  have htext : c.rendererParams.text? "backplate" = .ok c.backplate := by
    simp only [Params.text?, Params.read?, rendererParams_get?, if_true]
    cases c.backplate <;> rfl
  unfold Settings.backplateOf
  rw [htext]
  cases c.backplate with
  | none =>
      change Except.ok none = Except.ok backplate ↔ _
      constructor
      · rintro ⟨⟩
        exact ⟨nofun, rfl⟩
      · rintro ⟨_, rfl⟩
        rfl
  | some path =>
      simp only [SceneError.lift, Except.mapError, bind, Except.bind]
      cases himage : images path with
      | none => simp [himage]
      | some bitmap =>
          constructor
          · rintro ⟨⟩
            simp [himage]
          · rintro ⟨_, rfl⟩
            simp [himage, pure, Except.pure]

theorem ofParams_eq_ok {s : Settings} :
    Settings.ofParams images c.rendererParams = .ok s ↔
      (∀ path, c.backplate = some path → (images path).isSome) ∧ s = c.settings images := by
  have hdepth : c.rendererParams.int "max_depth" 20 = .ok (.ofNat c.maxDepth.toNat) := by
    simp [Params.int, Params.read?, rendererParams_get?]
  have hcontribution : c.rendererParams.float "min_contribution" Settings.default.minContribution =
      .ok c.minContribution := by
    simp [Params.float, Params.read?, rendererParams_get?]
  have hepsilon : c.rendererParams.float "epsilon" Settings.default.epsilon = .ok c.epsilon := by
    simp [Params.float, Params.read?, rendererParams_get?]
  have hsamples : c.rendererParams.int "spp" 16 = .ok (.ofNat c.samplesPerPixel.toNat) := by
    simp [Params.int, Params.read?, rendererParams_get?]
  have hmaxDepth : Settings.countOf (.ofNat c.maxDepth.toNat) 0 = c.maxDepth := by
    refine (Settings.countOf_ofNat c.maxDepth 0).trans ?_
    change (if c.maxDepth ≤ 0 then 0 else c.maxDepth) = c.maxDepth
    split
    · next h => exact (UInt32.le_zero_iff.mp h).symm
    · rfl
  have hspp : Settings.countOf (.ofNat c.samplesPerPixel.toNat) 1 = max c.samplesPerPixel 1 :=
    Settings.countOf_ofNat c.samplesPerPixel 1
  unfold Settings.ofParams
  rw [bind_eq_ok, hdepth, hcontribution, hepsilon, hsamples]
  simp only [backplateOf_eq_ok]
  constructor
  · rintro ⟨backplate, ⟨hloaded, rfl⟩, hs⟩
    cases hs
    exact ⟨hloaded, by rw [settings, hmaxDepth, hspp]⟩
  · rintro ⟨hloaded, rfl⟩
    refine ⟨_, ⟨hloaded, rfl⟩, ?_⟩
    change Except.ok _ = Except.ok _
    rw [settings, hmaxDepth, hspp]

theorem createRenderer_eq_ok {r : Renderer} :
    Catalog.builtin.createRenderer images c.renderer c.rendererParams = .ok r ↔
      c.renderer = "pathtracer" ∧ (∀ path, c.backplate = some path → (images path).isSome) ∧
        r = .create (c.settings images) .builtin := by
  have hkind : Catalog.builtin.renderers.get? c.renderer =
      if c.renderer = "pathtracer" then some .pathTracer else none :=
    Table.get?_set _ _ _ _
  unfold Catalog.createRenderer
  rw [hkind]
  by_cases hname : c.renderer = "pathtracer"
  · rw [if_pos hname]
    change (Settings.ofParams images c.rendererParams >>= fun settings =>
      Except.ok (Renderer.create settings .builtin)) = .ok r ↔ _
    simp only [bind_eq_ok, ofParams_eq_ok, hname, true_and]
    constructor
    · rintro ⟨_, ⟨hloaded, rfl⟩, hr⟩
      exact ⟨hloaded, (Except.ok.inj hr).symm⟩
    · rintro ⟨hloaded, rfl⟩
      exact ⟨_, ⟨hloaded, rfl⟩, rfl⟩
  · rw [if_neg hname]
    exact iff_of_false nofun fun h => hname h.1

/-! ## Frame operations -/

def opNamed? (name : String) : Option FrameOp :=
  if name = "frame_depth" then some .depth
  else if name = "frame_tonemap" then some (.toneMap c.exposure)
  else none

/-- The operations that run: those named, in order and with repetitions, without tone mapping where
colors are bytes. -/
def pipeline : List FrameOp :=
  (c.frameOps.filterMap c.opNamed?).filter fun op => op.kind = .depth || c.format = .rgba32f

theorem createFrameOp_eq_ok {name : String} {op : FrameOp} :
    Catalog.builtin.createFrameOp name c.frameOpParams = .ok op ↔ c.opNamed? name = some op := by
  have hkind : Catalog.builtin.frameOps.get? name =
      if name = "frame_tonemap" then some .toneMap
      else if name = "frame_depth" then some .depth else none := by
    simp [Catalog.builtin, Table.ofList, FrameOpKind.all, FrameOpKind.name, Table.get?_set]
  have hexposure : c.frameOpParams.float "exposure" 1.0 = .ok c.exposure := by
    simp [Params.float, Params.read?, frameOpParams, Table.ofList, Table.get?_set]
  unfold Catalog.createFrameOp opNamed?
  rw [hkind]
  rcases eq_or_ne name "frame_depth" with rfl | hdepth
  · simp [FrameOpKind.create, SceneError.lift, Except.mapError, pure, Except.pure]
  rw [if_neg hdepth]
  rcases eq_or_ne name "frame_tonemap" with rfl | htoneMap
  · simp [FrameOpKind.create, hexposure, SceneError.lift, Except.mapError, bind, Except.bind, pure,
      Except.pure]
  · simp [htoneMap, hdepth]

theorem createOps_eq_ok {ops : List FrameOp} :
    c.createOps = .ok ops ↔
      (∀ name ∈ c.frameOps, (c.opNamed? name).isSome) ∧ ops = c.frameOps.filterMap c.opNamed? := by
  unfold createOps
  induction c.frameOps generalizing ops with
  | nil =>
      constructor
      · rintro ⟨⟩
        exact ⟨nofun, rfl⟩
      · rintro ⟨_, rfl⟩
        rfl
  | cons name names ih =>
      simp only [List.mapM_cons, bind_eq_ok, createFrameOp_eq_ok, ih, pure, Except.pure,
        Except.ok.injEq, List.forall_mem_cons, List.filterMap_cons]
      cases hnamed : c.opNamed? name with
      | none => simp
      | some op =>
          constructor
          · rintro ⟨_, ⟨⟩, _, ⟨hknown, rfl⟩, rfl⟩
            exact ⟨⟨rfl, hknown⟩, rfl⟩
          · rintro ⟨⟨_, hknown⟩, rfl⟩
            exact ⟨op, rfl, _, ⟨hknown, rfl⟩, rfl⟩

end Config

namespace FrameBuffer

theorem foldl_addOp (fb : FrameBuffer) (ops : List FrameOp) :
    ops.foldl (fun fb op => (fb.addOp op).toOption.getD fb) fb =
      { fb with stages := fb.stages ++ reattach fb.layout ops } := by
  induction ops generalizing fb with
  | nil => simp [reattach]
  | cons op ops ih =>
      rw [List.foldl_cons, ih]
      unfold addOp reattach
      rw [List.filterMap_cons]
      cases op.attach fb.layout with
      | error e => rfl
      | ok stage => simp [bind, Except.bind, pure, Except.pure, Except.toOption]

end FrameBuffer

namespace Config

variable (c : Config)

theorem channel_of_mem_ops {op : FrameOp} (hop : op ∈ c.frameOps.filterMap c.opNamed?) :
    op.kind = .depth → c.layout.channels.depth = true := by
  intro hkind
  obtain ⟨name, hname, hnamed⟩ := List.mem_filterMap.mp hop
  unfold opNamed? at hnamed
  split at hnamed
  · next h =>
    subst h
    have hneeds : c.needsDepth = true := List.contains_iff_mem.mpr hname
    simp [layout, channels, hneeds]
  · split at hnamed <;> cases hnamed
    cases hkind

theorem createBuffer_eq_ok {fb : FrameBuffer} :
    c.createBuffer = .ok fb ↔
      c.width ≠ 0 ∧ c.height ≠ 0 ∧ (∀ name ∈ c.frameOps, (c.opNamed? name).isSome) ∧
        fb = { FrameBuffer.blank c.layout c.tileSize.toNat with
          stages := c.pipeline.map (⟨·, c.layout⟩) } := by
  have hcreate {blank : FrameBuffer} : FrameBuffer.create c.layout c.tileSize.toNat = .ok blank ↔
      c.width ≠ 0 ∧ c.height ≠ 0 ∧ blank = .blank c.layout c.tileSize.toNat := by
    have hzero (n : UInt32) : n.toNat = 0 ↔ n = 0 := UInt32.toNat_inj (b := 0)
    unfold FrameBuffer.create
    by_cases hsize : c.width = 0 ∨ c.height = 0
    · rw [if_pos (by simpa [layout, hzero] using hsize)]
      exact iff_of_false nofun fun h => hsize.elim h.1 h.2.1
    · rw [if_neg (by simpa [layout, hzero] using hsize), Except.ok.injEq, eq_comm]
      rw [not_or] at hsize
      exact ⟨fun h => ⟨hsize.1, hsize.2, h⟩, fun h => h.2.2⟩
  have hreattach : FrameBuffer.reattach c.layout (c.frameOps.filterMap c.opNamed?) =
      c.pipeline.map (⟨·, c.layout⟩) := by
    rw [FrameBuffer.reattach_eq, pipeline]
    congr 1
    exact List.filter_congr fun op hop => FrameOp.attach_isOk_eq (c.channel_of_mem_ops hop)
  have hstages := congrArg (fun stages =>
    { FrameBuffer.blank c.layout c.tileSize.toNat with stages }) hreattach
  unfold createBuffer
  simp only [bind_eq_ok, hcreate, createOps_eq_ok, pure, Except.pure, Except.ok.injEq,
    FrameBuffer.foldl_addOp]
  constructor
  · rintro ⟨_, ⟨hwidth, hheight, rfl⟩, _, ⟨hknown, rfl⟩, rfl⟩
    exact ⟨hwidth, hheight, hknown, hstages⟩
  · rintro ⟨hwidth, hheight, hknown, rfl⟩
    exact ⟨_, ⟨hwidth, hheight, rfl⟩, _, ⟨hknown, rfl⟩, hstages⟩

end Config

end TileTracer
