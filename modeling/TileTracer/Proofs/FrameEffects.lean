import TileTracer.Proofs.LayoutChanges

namespace TileTracer

namespace ArrayWrites

/-- Changes every element that has a partner in another array. -/
def overpaint {β γ : Type} (partners : Array γ) (f : γ → β → β) (a : Array β) : Array β :=
  a.mapIdx fun i b => match partners[i]? with
    | some c => f c b
    | none => b

variable {β γ δ : Type} {partners : Array γ} {f : γ → β → β}

theorem size_overpaint (a : Array β) : (overpaint partners f a).size = a.size :=
  Array.size_mapIdx

theorem getElem?_overpaint (a : Array β) (i : Nat) :
    (overpaint partners f a)[i]? = a[i]?.map fun b => partners[i]?.elim b (f · b) := by
  rw [overpaint, Array.getElem?_mapIdx]
  refine Option.map_congr fun b _ => ?_
  cases partners[i]? <;> rfl

theorem map_overpaint_of_replaced {a : Array β} {g : β → δ} {v : γ → δ}
    (hsize : a.size = partners.size) (hf : ∀ c b, g (f c b) = v c) :
    (overpaint partners f a).map g = partners.map v := by
  apply Array.ext_getElem?
  intro i
  rw [Array.getElem?_map, getElem?_overpaint, Array.getElem?_map, Option.map_map]
  by_cases hi : i < partners.size
  · simp [hi, hsize, hf]
  · simp [hi, hsize]

theorem map_overpaint_of_kept (a : Array β) {g : β → δ} (hf : ∀ c b, g (f c b) = g b) :
    (overpaint partners f a).map g = a.map g := by
  apply Array.ext_getElem?
  intro i
  rw [Array.getElem?_map, getElem?_overpaint, Array.getElem?_map, Option.map_map]
  refine Option.map_congr fun b _ => ?_
  rw [Function.comp_apply]
  cases partners[i]? with
  | none => rfl
  | some c => exact hf c b

theorem overpaint_overpaint (a : Array β) (hf : ∀ c b, f c (f c b) = f c b) :
    overpaint partners f (overpaint partners f a) = overpaint partners f a := by
  apply Array.ext_getElem?
  intro i
  rw [getElem?_overpaint, getElem?_overpaint, Option.map_map]
  refine Option.map_congr fun b _ => ?_
  rw [Function.comp_apply]
  cases partners[i]? with
  | none => rfl
  | some c => exact hf c b

end ArrayWrites

open TileTracer.ArrayWrites

def Vec4.gray {α : Type} (z : α) (c : Vec4 α) : Vec4 α := ⟨z, z, z, c.w⟩

namespace ColorStore

def rgb : ColorStore → Array (Vec3 UInt8) ⊕ Array (Vec3 Float32)
  | bytes pixels => .inl (pixels.map Vec4.head)
  | floats pixels => .inr (pixels.map Vec4.head)

def alpha : ColorStore → Array UInt8 ⊕ Array Float32
  | bytes pixels => .inl (pixels.map (·.w))
  | floats pixels => .inr (pixels.map (·.w))

end ColorStore

namespace FrameOp

theorem paintDepth_bytes (range : DepthRange) (depths : Array Float32)
    (pixels : Array (Vec4 UInt8)) :
    paintDepth range depths (.bytes pixels) =
      .bytes (overpaint depths (fun d => Vec4.gray (range.toByte d)) pixels) := by
  refine congrArg (fun f => ColorStore.bytes (pixels.mapIdx f)) (funext₂ fun i c => ?_)
  cases depths[i]? <;> rfl

theorem paintDepth_floats (range : DepthRange) (depths : Array Float32)
    (pixels : Array (Vec4 Float32)) :
    paintDepth range depths (.floats pixels) =
      .floats (overpaint depths (fun d => Vec4.gray (range.normalize d)) pixels) := by
  refine congrArg (fun f => ColorStore.floats (pixels.mapIdx f)) (funext₂ fun i c => ?_)
  cases depths[i]? <;> rfl

theorem runDepth_albedo (canvas : Canvas) (depths : Array Float32) :
    (runDepth canvas depths).albedo = canvas.albedo.map
      (overpaint depths fun d _ => .splat ((DepthRange.scan depths).normalize d)) := by
  refine Option.map_congr fun albedo _ => ?_
  refine congrArg albedo.mapIdx (funext₂ fun i a => ?_)
  cases depths[i]? <;> rfl

theorem paintDepth_alpha (range : DepthRange) (depths : Array Float32) (store : ColorStore) :
    (paintDepth range depths store).alpha = store.alpha := by
  cases store with
  | bytes pixels =>
      rw [paintDepth_bytes]
      exact congrArg Sum.inl (map_overpaint_of_kept pixels fun _ _ => rfl)
  | floats pixels =>
      rw [paintDepth_floats]
      exact congrArg Sum.inr (map_overpaint_of_kept pixels fun _ _ => rfl)

theorem paintDepth_size (range : DepthRange) (depths : Array Float32) (store : ColorStore) :
    (paintDepth range depths store).size = store.size := by
  cases store <;> exact Array.size_mapIdx

/-- Red, green and blue of the gray values of depths, in the storage of a format. -/
def grayRgb (range : DepthRange) (format : PixelFormat) (depths : Array Float32) :
    Array (Vec3 UInt8) ⊕ Array (Vec3 Float32) :=
  match format with
  | .rgba8 | .srgba => .inl (depths.map fun d => .splat (range.toByte d))
  | .rgba32f => .inr (depths.map fun d => .splat (range.normalize d))

theorem paintDepth_rgb (range : DepthRange) {depths : Array Float32} {store : ColorStore}
    {format : PixelFormat} (hfits : store.Fits format depths.size) :
    (paintDepth range depths store).rgb = grayRgb range format depths := by
  have hbytes (pixels : Array (Vec4 UInt8)) (hsize : pixels.size = depths.size) :
      (paintDepth range depths (.bytes pixels)).rgb =
        .inl (depths.map fun d => .splat (range.toByte d)) := by
    rw [paintDepth_bytes]
    exact congrArg Sum.inl (map_overpaint_of_replaced hsize fun _ _ => rfl)
  cases store with
  | bytes pixels =>
      cases format with
      | rgba8 => exact hbytes pixels hfits
      | srgba => exact hbytes pixels hfits
      | rgba32f => exact hfits.elim
  | floats pixels =>
      cases format with
      | rgba8 => exact hfits.elim
      | srgba => exact hfits.elim
      | rgba32f =>
          rw [paintDepth_floats]
          exact congrArg Sum.inr (map_overpaint_of_replaced hfits fun _ _ => rfl)

/-- The depth operation makes red, green, blue and albedo the gray values of the depths. -/
theorem run_depth_gray {canvas : Canvas} {layout : Layout} {depths : Array Float32}
    (hfits : canvas.Fits layout) (hdepth : canvas.depth = some depths) :
    (FrameOp.depth.run canvas).color.rgb =
        grayRgb (DepthRange.scan depths) layout.format depths ∧
      (FrameOp.depth.run canvas).albedo = canvas.albedo.map fun _ =>
        depths.map fun d => .splat ((DepthRange.scan depths).normalize d) := by
  have hsize := (Canvas.size_of_channel hfits.depth).2 depths hdepth
  have hcolor := hfits.color
  rw [← hsize] at hcolor
  have hrun : FrameOp.depth.run canvas = runDepth canvas depths := by simp only [run, hdepth]
  rw [hrun]
  refine ⟨paintDepth_rgb _ hcolor, (runDepth_albedo canvas depths).trans ?_⟩
  refine Option.map_congr fun albedo halbedo => ?_
  rw [← Array.map_id (overpaint _ _ _)]
  exact map_overpaint_of_replaced
    (((Canvas.size_of_channel hfits.albedo).2 albedo halbedo).trans hsize.symm) fun _ _ => rfl

theorem paintDepth_paintDepth (range : DepthRange) (depths : Array Float32) (store : ColorStore) :
    paintDepth range depths (paintDepth range depths store) = paintDepth range depths store := by
  cases store with
  | bytes pixels =>
      rw [paintDepth_bytes, paintDepth_bytes]
      exact congrArg ColorStore.bytes (overpaint_overpaint pixels fun _ _ => rfl)
  | floats pixels =>
      rw [paintDepth_floats, paintDepth_floats]
      exact congrArg ColorStore.floats (overpaint_overpaint pixels fun _ _ => rfl)

theorem run_depth_run_depth (canvas : Canvas) :
    FrameOp.depth.run (FrameOp.depth.run canvas) = FrameOp.depth.run canvas := by
  cases hdepth : canvas.depth with
  | none => simp only [run, hdepth]
  | some depths =>
      have hrun : FrameOp.depth.run canvas = runDepth canvas depths := by simp only [run, hdepth]
      have hagain : FrameOp.depth.run (runDepth canvas depths) =
          runDepth (runDepth canvas depths) depths := by
        simp only [run, show (runDepth canvas depths).depth = some depths from hdepth]
      rw [hrun, hagain]
      have hcolor : (runDepth (runDepth canvas depths) depths).color =
          (runDepth canvas depths).color := paintDepth_paintDepth _ _ _
      have halbedo : (runDepth (runDepth canvas depths) depths).albedo =
          (runDepth canvas depths).albedo := by
        rw [runDepth_albedo, runDepth_albedo, Option.map_map]
        exact Option.map_congr fun albedo _ => overpaint_overpaint albedo fun _ _ => rfl
      exact congrArg₂ (fun color albedo => { canvas with color, albedo }) hcolor halbedo

end FrameOp

namespace Canvas

/-- What no frame operation changes is the same on both canvases. -/
structure SameFrame (c c' : Canvas) : Prop where
  depth : c.depth = c'.depth
  normal : c.normal = c'.normal
  alpha : c.color.alpha = c'.color.alpha
  color : c.color.size = c'.color.size
  albedo : c.albedo.map Array.size = c'.albedo.map Array.size

theorem SameFrame.refl (c : Canvas) : c.SameFrame c := ⟨rfl, rfl, rfl, rfl, rfl⟩

theorem SameFrame.trans {c c' c'' : Canvas} (h : c.SameFrame c') (h' : c'.SameFrame c'') :
    c.SameFrame c'' :=
  ⟨h.depth.trans h'.depth, h.normal.trans h'.normal, h.alpha.trans h'.alpha,
    h.color.trans h'.color, h.albedo.trans h'.albedo⟩

/-- The canvases agree in their depths and in all that frame operations change. An albedo that only
one of them has is passed over. -/
structure LooksLike (c c' : Canvas) : Prop where
  depth : c.depth = c'.depth
  rgb : c.color.rgb = c'.color.rgb
  albedo : ∀ a a', c.albedo = some a → c'.albedo = some a' → a = a'

end Canvas

namespace FrameOp

theorem run_sameFrame (op : FrameOp) (canvas : Canvas) : (op.run canvas).SameFrame canvas := by
  cases op with
  | depth =>
      unfold run
      dsimp only
      split
      · refine ⟨rfl, rfl, paintDepth_alpha _ _ _, paintDepth_size _ _ _, ?_⟩
        rw [runDepth_albedo, Option.map_map]
        exact Option.map_congr fun albedo _ => size_overpaint albedo
      · exact .refl canvas
  | toneMap exposure =>
      unfold run
      dsimp only
      split
      · rename_i pixels hpixels
        refine ⟨rfl, rfl, ?_, ?_, rfl⟩
        · rw [hpixels]
          exact congrArg Sum.inr Array.map_map
        · rw [hpixels]
          exact Array.size_map
      · exact .refl canvas

def runAll (ops : List FrameOp) (canvas : Canvas) : Canvas :=
  ops.foldl (fun canvas op => op.run canvas) canvas

theorem runAll_append (first second : List FrameOp) (canvas : Canvas) :
    runAll (first ++ second) canvas = runAll second (runAll first canvas) :=
  List.foldl_append

theorem runAll_sameFrame (ops : List FrameOp) (canvas : Canvas) :
    (runAll ops canvas).SameFrame canvas := by
  induction ops generalizing canvas with
  | nil => exact .refl canvas
  | cons op ops ih => exact (ih (op.run canvas)).trans (op.run_sameFrame canvas)

theorem runAll_fits {canvas : Canvas} {layout : Layout} (hfits : canvas.Fits layout)
    (ops : List FrameOp) : (runAll ops canvas).Fits layout := by
  induction ops generalizing canvas with
  | nil => exact hfits
  | cons op ops ih => exact ih (op.run_fits hfits)

section LooksLike

variable {c c' : Canvas} {layout layout' : Layout} (hfits : c.Fits layout)
  (hfits' : c'.Fits layout') (hformat : layout.format = layout'.format)

include hfits hfits' hformat

/-- The depth operation makes red, green, blue and albedo of the depths alone. -/
theorem run_depth_looksLike (hdepth : c.depth = c'.depth) (hsome : c.depth.isSome = true) :
    (FrameOp.depth.run c).LooksLike (FrameOp.depth.run c') := by
  obtain ⟨depths, hdepths⟩ := Option.isSome_iff_exists.mp hsome
  obtain ⟨hrgb, halbedo⟩ := run_depth_gray hfits hdepths
  obtain ⟨hrgb', halbedo'⟩ := run_depth_gray hfits' (hdepth.symm.trans hdepths)
  have hsame := (run_sameFrame .depth c).depth
  have hsame' := (run_sameFrame .depth c').depth
  refine ⟨hsame.trans (hdepth.trans hsame'.symm), ?_, fun a a' ha ha' => ?_⟩
  · rw [hrgb, hrgb', hformat]
  · obtain ⟨_, _, rfl⟩ := Option.map_eq_some_iff.mp (halbedo.symm.trans ha)
    obtain ⟨_, _, rfl⟩ := Option.map_eq_some_iff.mp (halbedo'.symm.trans ha')
    rfl

theorem run_looksLike (op : FrameOp) (h : c.LooksLike c') :
    (op.run c).LooksLike (op.run c') := by
  cases op with
  | depth =>
      cases hdepth : c.depth with
      | none =>
          have hrun : FrameOp.depth.run c = c := by simp only [run, hdepth]
          have hrun' : FrameOp.depth.run c' = c' := by simp only [run, h.depth.symm.trans hdepth]
          rwa [hrun, hrun']
      | some depths => exact run_depth_looksLike hfits hfits' hformat h.depth (by simp [hdepth])
  | toneMap exposure =>
      have hrgb := h.rgb
      unfold run
      cases hcolor : c.color with
      | bytes pixels =>
          cases hcolor' : c'.color with
          | bytes pixels' => exact h
          | floats pixels' => rw [hcolor, hcolor'] at hrgb; cases hrgb
      | floats pixels =>
          cases hcolor' : c'.color with
          | bytes pixels' => rw [hcolor, hcolor'] at hrgb; cases hrgb
          | floats pixels' =>
              rw [hcolor, hcolor'] at hrgb
              have hmap (pixels : Array (Vec4 Float32)) :
                  (pixels.map (toneMapPixel exposure)).map Vec4.head =
                    (pixels.map Vec4.head).map (Vec3.map fun v => filmic (v * exposure)) := by
                rw [Array.map_map, Array.map_map]
                rfl
              refine ⟨h.depth, congrArg Sum.inr ?_, h.albedo⟩
              rw [hmap, hmap, Sum.inr.inj hrgb]

theorem runAll_looksLike (ops : List FrameOp) (h : c.LooksLike c') :
    (runAll ops c).LooksLike (runAll ops c') := by
  induction ops generalizing c c' with
  | nil => exact h
  | cons op ops ih =>
      exact ih (op.run_fits hfits) (op.run_fits hfits') (run_looksLike hfits hfits' hformat op h)

end LooksLike

end FrameOp

namespace FrameBuffer

open FrameOp (runAll)

theorem endFrame_canvas (fb : FrameBuffer) : fb.endFrame.canvas = runAll fb.ops fb.canvas := by
  rw [runAll, ops, List.foldl_map]
  rfl

theorem WellFormed.depth_isSome {fb : FrameBuffer} (h : fb.WellFormed) (hop : .depth ∈ fb.ops) :
    fb.canvas.depth.isSome = true := by
  have hchannel : fb.layout.channels.depth = true := by
    simpa [FrameOp.obstacle?] using h.obstacle?_of_mem hop
  rw [(Canvas.size_of_channel h.canvas.depth).1, hchannel]

/-- Nothing of what is there before the depth operation is seen behind it. -/
theorem WellFormed.endFrame_looksLike {fb other : FrameBuffer} (h : fb.WellFormed)
    (hother : other.WellFormed) {early early' later : List FrameOp}
    (hops : fb.ops = early ++ .depth :: later) (hops' : other.ops = early' ++ .depth :: later)
    (hdepth : other.canvas.depth = fb.canvas.depth)
    (hformat : other.layout.format = fb.layout.format) :
    other.endFrame.canvas.LooksLike fb.endFrame.canvas := by
  have hsame := (FrameOp.runAll_sameFrame early fb.canvas).depth
  have hsame' := (FrameOp.runAll_sameFrame early' other.canvas).depth
  have hsome : (runAll early' other.canvas).depth.isSome = true := by
    rw [hsame', hdepth]
    exact h.depth_isSome (by simp [hops])
  have hfits := FrameOp.runAll_fits h.canvas early
  have hfits' := FrameOp.runAll_fits hother.canvas early'
  rw [endFrame_canvas, endFrame_canvas, hops, hops', FrameOp.runAll_append, FrameOp.runAll_append]
  refine FrameOp.runAll_looksLike (FrameOp.depth.run_fits hfits') (FrameOp.depth.run_fits hfits)
    hformat later ?_
  refine FrameOp.run_depth_looksLike hfits' hfits hformat ?_ hsome
  rw [hsame, hsame', hdepth]

/-- The operations at the end of a frame leave all but red, green, blue, albedo and the frame
counter as they are. What they make of these behind a depth operation is the same for all buffers
with the same depths, and a depth operation right after another one makes no difference. -/
theorem Reachable.endFrame_effect {fb : FrameBuffer} (hreachable : fb.Reachable) :
    fb.endFrame = { fb with canvas := fb.endFrame.canvas, frames := fb.frames + 1 } ∧
    fb.endFrame.canvas.depth = fb.canvas.depth ∧ fb.endFrame.canvas.normal = fb.canvas.normal ∧
    fb.endFrame.canvas.color.alpha = fb.canvas.color.alpha ∧
    fb.endFrame.canvas.color.size = fb.canvas.color.size ∧
    fb.endFrame.canvas.albedo.map Array.size = fb.canvas.albedo.map Array.size ∧
    (∀ (other : FrameBuffer) (early early' later : List FrameOp), other.Reachable →
      fb.ops = early ++ .depth :: later → other.ops = early' ++ .depth :: later →
      other.canvas.depth = fb.canvas.depth → other.layout.format = fb.layout.format →
      other.endFrame.canvas.color.rgb = fb.endFrame.canvas.color.rgb ∧
      ∀ a b, other.endFrame.canvas.albedo = some a → fb.endFrame.canvas.albedo = some b → a = b) ∧
    ∀ (once : FrameBuffer) (early later : List FrameOp),
      fb.ops = early ++ .depth :: .depth :: later → once.ops = early ++ .depth :: later →
      once.canvas = fb.canvas → once.endFrame.canvas = fb.endFrame.canvas := by
  have hsame := FrameOp.runAll_sameFrame fb.ops fb.canvas
  rw [← endFrame_canvas] at hsame
  refine ⟨rfl, hsame.depth, hsame.normal, hsame.alpha, hsame.color, hsame.albedo, ?_, ?_⟩
  · intro other early early' later hother hops hops' hdepth hformat
    have hlooks :=
      hreachable.wellFormed.endFrame_looksLike hother.wellFormed hops hops' hdepth hformat
    exact ⟨hlooks.rgb, hlooks.albedo⟩
  · intro once early later hops honce hcanvas
    rw [endFrame_canvas, endFrame_canvas, hops, honce, hcanvas, FrameOp.runAll_append,
      FrameOp.runAll_append]
    exact congrArg (runAll later) (FrameOp.run_depth_run_depth (runAll early fb.canvas)).symm

theorem Reachable.endFrame_effect_painted_over :
    ∃ fb other once : FrameBuffer, fb.Reachable ∧ other.Reachable ∧
      fb.ops = [.toneMap 2.0, .depth, .depth, .toneMap 0.5] ∧ other.ops = [.depth, .toneMap 0.5] ∧
      once.ops = [.toneMap 2.0, .depth, .toneMap 0.5] ∧
      fb.canvas.depth = some #[3.0, 1.0] ∧ other.canvas.depth = some #[3.0, 1.0] ∧
      fb.canvas.color.rgb ≠ other.canvas.color.rgb ∧
      fb.endFrame.canvas.color.alpha = .inr #[0.25, 0.75] ∧
      fb.endFrame.canvas.depth = some #[3.0, 1.0] ∧ fb.endFrame.frames = 1 ∧
      other.endFrame.canvas.color.rgb = fb.endFrame.canvas.color.rgb ∧
      once.endFrame.canvas = fb.endFrame.canvas := by
  let layout : Layout := ⟨2, 1, .rgba32f, ⟨true, true, false⟩⟩
  let fb : FrameBuffer := (blank layout 1).run
    [.write (.floats #[⟨5, 6, 7, 0.25⟩, ⟨8, 9, 10, 0.75⟩]), .write (.depth #[3.0, 1.0]),
      .addOp (.toneMap 2.0), .addOp .depth, .addOp .depth, .addOp (.toneMap 0.5)]
  let other : FrameBuffer := (blank layout 2).run
    [.write (.depth #[3.0, 1.0]), .addOp .depth, .addOp (.toneMap 0.5)]
  let once : FrameBuffer :=
    { fb with stages := [.toneMap 2.0, .depth, .toneMap 0.5].map (⟨·, layout⟩) }
  have hfb : fb.Reachable := ⟨layout, 1, _, _, rfl, rfl⟩
  have hother : other.Reachable := ⟨layout, 2, _, _, rfl, rfl⟩
  have hops : fb.ops = [.toneMap 2.0, .depth, .depth, .toneMap 0.5] := rfl
  have hops' : other.ops = [.depth, .toneMap 0.5] := rfl
  have honce : once.ops = [.toneMap 2.0, .depth, .toneMap 0.5] := rfl
  have hcanvas (b : FrameBuffer) (stages : List Stage) : { b with stages }.canvas = b.canvas := rfl
  have hformat : fb.layout.format = .rgba32f := rfl
  have hformat' : other.layout.format = .rgba32f := rfl
  have hdepth : fb.canvas.depth = some #[3.0, 1.0] := rfl
  have hdepth' : other.canvas.depth = some #[3.0, 1.0] := rfl
  -- Only the writes have changed the channels, so these are read before the operations are added.
  let written := (blank layout 1).run [.write (.floats #[⟨5, 6, 7, 0.25⟩, ⟨8, 9, 10, 0.75⟩])]
  have hwritten : fb.canvas.color = written.canvas.color := rfl
  have hblank : other.canvas.color = (blank layout 2).canvas.color := rfl
  have halpha : fb.canvas.color.alpha = .inr #[0.25, 0.75] := by
    rw [hwritten]
    decide +kernel
  have hcolors : fb.canvas.color.rgb ≠ other.canvas.color.rgb := by
    rw [hwritten, hblank]
    decide +kernel
  obtain ⟨_, hkept, _, hkept', _, _, habsorbed, htwice⟩ := hfb.endFrame_effect
  refine ⟨fb, other, once, hfb, hother, hops, hops', honce, hdepth, hdepth', hcolors,
    hkept'.trans halpha, hkept.trans hdepth, rfl, ?_, ?_⟩
  · exact (habsorbed other [.toneMap 2.0, .depth] [] [.toneMap 0.5] hother hops hops'
      (hdepth'.trans hdepth.symm) (hformat'.trans hformat.symm)).1
  · exact htwice once [.toneMap 2.0] [.toneMap 0.5] hops honce (hcanvas fb _)

end FrameBuffer

end TileTracer
