import TileTracer.Proofs.CommandSettings
import TileTracer.Proofs.EncodedBytes
import TileTracer.Proofs.GuardedHistory
import TileTracer.Proofs.RendererHistory
import TileTracer.Proofs.SceneBinding
import TileTracer.Proofs.TileIndependence

namespace TileTracer

/-! ## The demo scene -/

namespace Demo

theorem world_of_palette_eq {r r' : Renderer} (h : r.palette = r'.palette) :
    world r = world r' := by
  have hinstances : instances r = instances r' := by
    simp only [instances, Renderer.createMaterial, h]
  rw [world, world, hinstances]

/-- Renderers with the built-in materials all get the same world. -/
theorem exists_world :
    ∃ w : World, w.isCommitted = true ∧ ∀ r : Renderer, r.palette = .builtin → world r = .ok w := by
  have hcommitted : (world (.create .default .builtin)).toOption.any (·.isCommitted) = true := by
    decide +kernel
  have heq (r : Renderer) (h : r.palette = .builtin) :
      world r = world (.create .default .builtin) :=
    world_of_palette_eq h
  revert hcommitted heq
  cases world (.create .default .builtin) with
  | error e => nofun
  | ok w => exact fun hcommitted heq => ⟨w, hcommitted, heq⟩

end Demo

theorem resolveBinding_of_set (params : Params) (renderer : String) {w : World}
    (hcommitted : w.isCommitted = true) (camera : Camera) :
    resolveBinding ((params.set "world" (.world w)).set cameraKey (.camera camera)) renderer =
      .ok (w, camera) := by
  refine resolveBinding_eq_ok_iff.mpr ⟨⟨"world", [], ["model"], rfl, nofun, ?_⟩, hcommitted, ?_⟩
  · simp [Table.get?_set, cameraKey]
  · simp [Table.get?_set]

namespace Config

variable (c : Config) (images : String → Option Bitmap) (w : World)

def commitment : Commitment := ⟨w, Demo.camera c.aspect, 1⟩

variable {w} in
theorem bindDemo_eq (hcommitted : w.isCommitted = true) {r : Renderer}
    (hworld : Demo.world r = .ok w) :
    ∃ bound, c.bindDemo r = .ok bound ∧ bound.settings = r.settings ∧ bound.palette = r.palette ∧
      bound.committed = some (c.commitment w) := by
  let asked := (r.setParam "world" (.world w)).setParam cameraKey (.camera (Demo.camera c.aspect))
  have hbinding : resolveBinding asked.params Renderer.typeName = .ok (w, Demo.camera c.aspect) :=
    resolveBinding_of_set r.params _ hcommitted _
  refine ⟨{ asked with committed := some (c.commitment w) }, ?_, rfl, rfl, rfl⟩
  unfold bindDemo
  rw [hworld]
  change (asked.commit .first >>= fun committed => Except.ok committed.1) = _
  rw [Renderer.commit_of_ok hbinding]
  rfl

/-! ## Frames -/

theorem renderFrames_eq (r : Renderer) (n : Nat) (fb : FrameBuffer) :
    renderFrames r n fb = r.renderFrames (.replicate n FrameBuffer.centerOrder) fb := by
  induction n generalizing fb with
  | zero => rfl
  | succ n ih =>
      rw [renderFrames, List.replicate_succ, Renderer.renderFrames]
      congr
      funext fb
      exact ih fb

def finished : FrameBuffer :=
  .after (c.commitment w) (c.settings images) c.layout c.tileSize.toNat
    (c.pipeline.map (⟨·, c.layout⟩)) c.frames

variable {images w} in
theorem renderFrames_finished {r : Renderer} (hsettings : r.settings = c.settings images)
    (hcommitted : r.committed = some (c.commitment w)) :
    r.renderFrames (.replicate c.frames FrameBuffer.centerOrder)
      { FrameBuffer.blank c.layout c.tileSize.toNat with
        stages := c.pipeline.map (⟨·, c.layout⟩) } = .ok (c.finished images w) := by
  have horders : ∀ order ∈ List.replicate c.frames FrameBuffer.centerOrder,
      FrameBuffer.IsTileOrder
        (FrameBuffer.coverTiles c.layout (max c.tileSize.toNat 1)).size order := by
    intro order horder
    rw [List.eq_of_mem_replicate horder]
    exact FrameBuffer.centerOrder_isTileOrder _
  have hrun := FrameBuffer.renderFrames_after (c.commitment w) c.layout c.tileSize.toNat
    (c.pipeline.map (⟨·, c.layout⟩)) hcommitted horders 0
  rw [FrameBuffer.after_zero, List.length_replicate, Nat.zero_add, hsettings] at hrun
  exact hrun

/-! ## What is refused -/

inductive Refused : Prop
  | renderer : c.renderer ≠ "pathtracer" → Refused
  | backplate {path : String} : c.backplate = some path → images path = none → Refused
  | width : c.width = 0 → Refused
  | height : c.height = 0 → Refused
  | frameOp {name : String} : name ∈ c.frameOps → name ≠ "frame_depth" → name ≠ "frame_tonemap" →
      Refused

theorem opNamed?_isSome (name : String) :
    (c.opNamed? name).isSome ↔ name = "frame_depth" ∨ name = "frame_tonemap" := by
  unfold opNamed?
  split
  · next h => exact iff_of_true rfl (.inl h)
  · next h =>
    split
    · next h' => exact iff_of_true rfl (.inr h')
    · next h' => exact iff_of_false nofun (not_or.mpr ⟨h, h'⟩)

theorem not_refused_iff :
    ¬ c.Refused images ↔
      c.renderer = "pathtracer" ∧ (∀ path, c.backplate = some path → (images path).isSome) ∧
        c.width ≠ 0 ∧ c.height ≠ 0 ∧ ∀ name ∈ c.frameOps, (c.opNamed? name).isSome := by
  constructor
  · intro h
    refine ⟨not_not.mp (h ∘ .renderer), ?_, h ∘ .width, h ∘ .height, ?_⟩
    · intro path hpath
      exact Option.isSome_iff_ne_none.mpr (h ∘ .backplate hpath)
    · intro name hname
      rw [opNamed?_isSome]
      by_contra hother
      obtain ⟨hdepth, htoneMap⟩ := not_or.mp hother
      exact h (.frameOp hname hdepth htoneMap)
  · rintro ⟨hrenderer, hbackplate, hwidth, hheight, hops⟩ hrefused
    cases hrefused with
    | renderer h => exact h hrenderer
    | backplate hpath h =>
        have hsome := hbackplate _ hpath
        rw [h] at hsome
        cases hsome
    | width h => exact hwidth h
    | height h => exact hheight h
    | frameOp hname hdepth htoneMap =>
        exact ((c.opNamed?_isSome _).mp (hops _ hname)).elim hdepth htoneMap

end Config

/-! ## The picture -/

theorem mapIdx_flatMap_alpha (pixels : List (Vec4 UInt8)) :
    (pixels.flatMap fun p => [p.x, p.y, p.z, p.w]).mapIdx
        (fun i b => if i % 4 = 3 then 255 else b) =
      pixels.flatMap fun p => [p.x, p.y, p.z, 255] := by
  induction pixels with
  | nil => rfl
  | cons p pixels ih =>
      have hshift (i : Nat) : (i + 1 + 1 + 1 + 1) % 4 = i % 4 := Nat.add_mod_right i 4
      simp only [List.flatMap_cons, List.cons_append, List.nil_append, List.mapIdx_cons, hshift, ih]
      rfl

namespace Config

variable (c : Config) (images : String → Option Bitmap) (w : World)

theorem picture_bytes (fb : FrameBuffer) :
    (c.picture fb).bytes = fb.canvas.color.toBytes.flatMap fun p =>
      #[p.x, p.y, p.z, if c.transparentBackground then p.w else 255] := by
  unfold picture
  cases c.transparentBackground with
  | true => rfl
  | false =>
      apply Array.toList_inj.mp
      change (Array.mapIdx _ (Array.flatMap _ _)).toList = _
      rw [Array.toList_mapIdx, Array.toList_flatMap, Array.toList_flatMap]
      exact mapIdx_flatMap_alpha _

theorem size_picture :
    (c.picture (c.finished images w)).bytes.size = 4 * c.width.toNat * c.height.toNat := by
  have hfits := FrameBuffer.canvasAfter_fits (c.commitment w) (c.settings images) c.layout
    (c.pipeline.map (⟨·, c.layout⟩)) c.frames
  rw [picture_bytes]
  refine (size_flatMap_of_size (k := 4) (fun _ => rfl) _).trans ?_
  rw [ColorStore.size_toBytes, Nat.mul_assoc]
  exact congrArg (4 * ·) hfits.color.size_eq

theorem picture_width (fb : FrameBuffer) : (c.picture fb).width = fb.layout.width := by
  unfold picture
  split <;> rfl

theorem picture_height (fb : FrameBuffer) : (c.picture fb).height = fb.layout.height := by
  unfold picture
  split <;> rfl

/-- The bytes of a finished frame are as many as the picture needs. -/
theorem picture?_finished :
    c.picture? (c.finished images w) = .ok (c.picture (c.finished images w)) := by
  have hwidth : (c.picture (c.finished images w)).width = c.width.toNat := c.picture_width _
  have hheight : (c.picture (c.finished images w)).height = c.height.toNat := c.picture_height _
  rw [picture?, Picture.ofBytes?, if_pos (c.size_picture images w).ge, ← hwidth, ← hheight]

variable {images w} in
theorem render_eq_ok (hcommitted : w.isCommitted = true)
    (hworld : ∀ r : Renderer, r.palette = .builtin → Demo.world r = .ok w) {picture : Picture} :
    c.render images = .ok picture ↔
      ¬ c.Refused images ∧ picture = c.picture (c.finished images w) := by
  obtain ⟨bound, hbound, hsettings, _, hcommitment⟩ :=
    c.bindDemo_eq hcommitted (hworld (.create (c.settings images) .builtin) rfl)
  have hframes := c.renderFrames_finished hsettings hcommitment
  rw [← renderFrames_eq] at hframes
  unfold render
  simp only [bind_eq_ok, mapError_eq_ok, createRenderer_eq_ok, createBuffer_eq_ok, not_refused_iff]
  constructor
  · rintro ⟨_, ⟨hname, hloaded, rfl⟩, _, hmade, hpicture⟩
    obtain ⟨_, ⟨hwidth, hheight, hknown, rfl⟩, _, hbind, hrendered⟩ := hmade
    cases hbound.symm.trans hbind
    cases hframes.symm.trans hrendered
    cases (c.picture?_finished images w).symm.trans hpicture
    exact ⟨⟨hname, hloaded, hwidth, hheight, hknown⟩, rfl⟩
  · rintro ⟨⟨hname, hloaded, hwidth, hheight, hknown⟩, rfl⟩
    refine ⟨_, ⟨hname, hloaded, rfl⟩, c.finished images w, ?_, c.picture?_finished images w⟩
    exact ⟨_, ⟨hwidth, hheight, hknown, rfl⟩, bound, hbound, hframes⟩

/-! ## What is rendered -/

theorem names_filter_filterMap {names : List String}
    (hknown : ∀ name ∈ names, (c.opNamed? name).isSome) :
    ((names.filterMap c.opNamed?).filter fun op => op.kind = .depth || c.format = .rgba32f).map
        FrameOp.name =
      names.filter fun name => name = "frame_depth" || c.format = .rgba32f := by
  induction names with
  | nil => rfl
  | cons name names ih =>
      obtain ⟨hname, hnames⟩ := List.forall_mem_cons.mp hknown
      have hrest := ih hnames
      rcases (c.opNamed?_isSome name).mp hname with rfl | rfl
      · have hop : c.opNamed? "frame_depth" = some .depth := rfl
        rw [List.filterMap_cons_some hop, List.filter_cons_of_pos (by simp [FrameOp.kind]),
          List.map_cons, hrest, List.filter_cons_of_pos (by simp)]
        rfl
      · have hop : c.opNamed? "frame_tonemap" = some (.toneMap c.exposure) := rfl
        rw [List.filterMap_cons_some hop]
        by_cases hformat : c.format = .rgba32f
        · rw [List.filter_cons_of_pos (by simp [hformat]), List.map_cons, hrest,
            List.filter_cons_of_pos (by simp [hformat])]
          rfl
        · rw [List.filter_cons_of_neg (by simp [FrameOp.kind, hformat]), hrest,
            List.filter_cons_of_neg (by simp [hformat])]

theorem exposure_of_mem_pipeline {exposure : Float32} (h : .toneMap exposure ∈ c.pipeline) :
    exposure = c.exposure := by
  obtain ⟨name, _, hnamed⟩ := List.mem_filterMap.mp (List.mem_filter.mp h).1
  unfold opNamed? at hnamed
  split at hnamed
  · cases hnamed
  · split at hnamed
    · cases hnamed
      rfl
    · cases hnamed

/-- A renderer, a buffer and a picture as a configuration asks for them. -/
structure Rendered (r : Renderer) (fb : FrameBuffer) (picture : Picture) : Prop where
  settings : r.settings = c.settings images
  committed : ∃ world generation, Demo.world r = .ok world ∧ world.isCommitted = true ∧
    r.committed = some ⟨world, Demo.camera c.aspect, generation⟩
  frames : r.renderFrames (.replicate (max c.passes.toNat 1) FrameBuffer.centerOrder)
    { FrameBuffer.blank c.layout c.tileSize.toNat with
      stages := c.pipeline.map (⟨·, c.layout⟩) } = .ok fb
  names : fb.opNames = c.frameOps.filter fun name => name = "frame_depth" || c.format = .rgba32f
  exposure : ∀ exposure, .toneMap exposure ∈ fb.ops → exposure = c.exposure
  count : fb.frames = max c.passes.toNat 1
  samples : ∀ t ∈ fb.tiles, t.samples = max c.passes.toNat 1 * max c.samplesPerPixel.toNat 1
  width : picture.width = c.width.toNat
  height : picture.height = c.height.toNat
  size : picture.bytes.size = 4 * c.width.toNat * c.height.toNat
  bytes : picture.bytes = fb.canvas.color.toBytes.flatMap fun p =>
    #[p.x, p.y, p.z, if c.transparentBackground then p.w else 255]

variable {images w} in
theorem exists_rendered (hcommitted : w.isCommitted = true)
    (hworld : ∀ r : Renderer, r.palette = .builtin → Demo.world r = .ok w)
    (haccepted : ¬ c.Refused images) :
    ∃ r, c.Rendered images r (c.finished images w) (c.picture (c.finished images w)) := by
  obtain ⟨bound, _, hsettings, hpalette, hcommitment⟩ :=
    c.bindDemo_eq hcommitted (hworld (.create (c.settings images) .builtin) rfl)
  obtain ⟨_, _, _, _, hknown⟩ := (c.not_refused_iff images).mp haccepted
  have hops : (c.finished images w).ops = c.pipeline := by
    change (c.pipeline.map _).map _ = _
    rw [List.map_map]
    exact List.map_id' _
  have hsamples : (c.settings images).samplesPerPixel.toNat = max c.samplesPerPixel.toNat 1 :=
    UInt32.toNat_max _ _
  refine ⟨bound, hsettings, ⟨w, 1, hworld bound hpalette, hcommitted, hcommitment⟩,
    c.renderFrames_finished hsettings hcommitment, ?_, ?_, rfl, ?_, ?_, ?_,
    c.size_picture images w, c.picture_bytes _⟩
  · rw [← c.names_filter_filterMap hknown, ← pipeline, ← hops, FrameBuffer.ops, List.map_map]
    rfl
  · intro exposure hexposure
    exact c.exposure_of_mem_pipeline (hops ▸ hexposure)
  · intro t ht
    have ht := FrameBuffer.samples_of_mem_tiles_after _ _ _ _ _ ht
    rw [hsamples, Nat.max_assoc, Nat.max_self] at ht
    exact ht
  · exact c.picture_width _
  · exact c.picture_height _

end Config

/-- If the picture of a configuration can be saved, the command fails for refused configurations
only, and then there is nothing to save. For all others it saves a picture that is rendered as they
ask for. -/
theorem Outcome.ofConfig_refused_or_rendered (ws : Workspace) (c : Config)
    (hsave : ∀ picture, c.render ws.image? = .ok picture → (ws.save? c.output picture).isSome) :
    ((∃ e, ofConfig ws c = .failed e) ↔ c.Refused ws.image?) ∧
    (c.Refused ws.image? → ∃ e, c.render ws.image? = .error e) ∧
    (¬ c.Refused ws.image? → ∃ r fb picture shown, c.Rendered ws.image? r fb picture ∧
      c.render ws.image? = .ok picture ∧ ws.save? c.output picture = some shown ∧
      ofConfig ws c = .written c.output shown) := by
  obtain ⟨w, hcommitted, hworld⟩ := Demo.exists_world
  have hrefused : c.Refused ws.image? → ∃ e, c.render ws.image? = .error e := by
    intro h
    cases hrender : c.render ws.image? with
    | error e => exact ⟨e, rfl⟩
    | ok picture => exact absurd h ((c.render_eq_ok hcommitted hworld).mp hrender).1
  have haccepted : ¬ c.Refused ws.image? → ∃ r fb picture shown, c.Rendered ws.image? r fb picture ∧
      c.render ws.image? = .ok picture ∧ ws.save? c.output picture = some shown ∧
      ofConfig ws c = .written c.output shown := by
    intro h
    obtain ⟨r, hrendered⟩ := c.exists_rendered hcommitted hworld h
    have hrender := (c.render_eq_ok hcommitted hworld).mpr ⟨h, rfl⟩
    obtain ⟨shown, hshown⟩ := Option.isSome_iff_exists.mp (hsave _ hrender)
    refine ⟨r, _, _, shown, hrendered, hrender, hshown, ?_⟩
    rw [ofConfig, hrender]
    dsimp only
    rw [hshown]
  refine ⟨⟨?_, ?_⟩, hrefused, haccepted⟩
  · rintro ⟨e, he⟩
    by_contra h
    obtain ⟨_, _, _, _, _, _, _, hwritten⟩ := haccepted h
    cases he.symm.trans hwritten
  · intro h
    obtain ⟨e, he⟩ := hrefused h
    exact ⟨e, by rw [ofConfig, he]⟩

theorem Outcome.ofConfig_refused_or_rendered_in_bytes :
    let ws : Workspace := { Workspace.empty with hasPlace := fun _ => true }
    let c : Config := { Config.default with
      width := 3, height := 2, format := .srgba, passes := 0, samplesPerPixel := 0
      frameOps := ["frame_tonemap", "frame_depth", "frame_depth"] }
    (∃ r fb picture shown, c.Rendered ws.image? r fb picture ∧ fb.frames = 1 ∧
      fb.opNames = ["frame_depth", "frame_depth"] ∧ picture.bytes.size = 24 ∧
      ofConfig ws c = .written "tessel.png" shown) ∧
    ∃ e, ofConfig ws { c with backplate := some "sky.png" } = .failed e := by
  intro ws c
  have hsave (c : Config) (houtput : c.output = "tessel.png") : ∀ picture,
      c.render ws.image? = .ok picture → (ws.save? c.output picture).isSome := by
    intro picture _
    have hformat : FileFormat.ofPath? "tessel.png" = some .png := by decide +kernel
    rw [houtput, Workspace.save?, hformat]
    rfl
  constructor
  · obtain ⟨_, _, haccepted⟩ := ofConfig_refused_or_rendered ws c (hsave c rfl)
    have hnot : ¬ c.Refused ws.image? := by
      rw [Config.not_refused_iff]
      exact ⟨rfl, nofun, by decide, by decide, by decide +kernel⟩
    obtain ⟨r, fb, picture, shown, hrendered, _, _, hwritten⟩ := haccepted hnot
    exact ⟨r, fb, picture, shown, hrendered, hrendered.count, hrendered.names, hrendered.size,
      hwritten⟩
  · obtain ⟨hfails, _⟩ :=
      ofConfig_refused_or_rendered ws { c with backplate := some "sky.png" } (hsave _ rfl)
    exact hfails.mpr (.backplate rfl rfl)

end TileTracer
