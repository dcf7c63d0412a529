import TileTracer.Proofs.Binary32Bytes
import TileTracer.Proofs.Binary32Spans
import TileTracer.Proofs.FrameEffects

namespace TileTracer

open Scalar OrderedScalar

namespace DepthRange

variable {low high d e : Float32} {depths : List Float32}

/-! ## The ends of the finite depths -/

def widen (ends : Float32 × Float32) (d : Float32) : Float32 × Float32 :=
  if isFinite d then (lesser ends.1 d, greater ends.2 d) else ends

theorem extent_eq (depths : Array Float32) :
    extent depths = depths.toList.foldl widen (infinity, -infinity) :=
  (Array.foldl_toList _).symm

/-- The least and the greatest of the finite depths. -/
structure Ends (low high : Float32) (depths : List Float32) : Prop where
  low_mem : low ∈ depths
  high_mem : high ∈ depths
  low_isFinite : isFinite low = true
  high_isFinite : isFinite high = true
  between {d : Float32} : d ∈ depths → isFinite d = true → low ≤ d ∧ d ≤ high

theorem Ends.widen (h : Ends low high depths) (hd : isFinite d = true) :
    Ends (lesser low d) (greater high d) (depths ++ [d]) := by
  have hmem : d ∈ depths ++ [d] := List.mem_concat_self
  refine ⟨lesser_of_both (P := (· ∈ depths ++ [d])) (List.mem_append_left _ h.low_mem) hmem,
    greater_of_both (P := (· ∈ depths ++ [d])) (List.mem_append_left _ h.high_mem) hmem,
    lesser_isFinite h.low_isFinite hd, greater_isFinite h.high_isFinite hd,
    fun {e} he hfinite => ?_⟩
  rcases List.mem_append.mp he with he | he
  · obtain ⟨hlow, hhigh⟩ := h.between he hfinite
    have hself := le_self_of_isFinite h.high_isFinite
    exact ⟨lesser_le_of_le hlow, le_trans hhigh (le_greater_left hself)⟩
  · cases List.mem_singleton.mp he
    have hself := le_self_of_isFinite hd
    exact ⟨lesser_le_right hself, le_greater_right hself⟩

theorem Ends.skip (h : Ends low high depths) (hd : isFinite d = false) :
    Ends low high (depths ++ [d]) where
  low_mem := List.mem_append_left _ h.low_mem
  high_mem := List.mem_append_left _ h.high_mem
  low_isFinite := h.low_isFinite
  high_isFinite := h.high_isFinite
  between {e} he hfinite := by
    rcases List.mem_append.mp he with he | he
    · exact h.between he hfinite
    · cases List.mem_singleton.mp he
      rw [hd] at hfinite
      cases hfinite

theorem Ends.first (hdepths : ∀ e ∈ depths, isFinite e = false) (hd : isFinite d = true) :
    Ends d d (depths ++ [d]) where
  low_mem := List.mem_concat_self
  high_mem := List.mem_concat_self
  low_isFinite := hd
  high_isFinite := hd
  between {e} he hfinite := by
    rcases List.mem_append.mp he with he | he
    · rw [hdepths e he] at hfinite
      cases hfinite
    · cases List.mem_singleton.mp he
      exact ⟨le_self_of_isFinite hd, le_self_of_isFinite hd⟩

theorem foldl_widen (depths : List Float32) :
    (∀ d ∈ depths, isFinite d = false) ∧
        depths.foldl DepthRange.widen (infinity, -infinity) = (infinity, -infinity) ∨
      ∃ low high, depths.foldl DepthRange.widen (infinity, -infinity) = (low, high) ∧
        Ends low high depths := by
  induction depths using List.reverseRecOn with
  | nil => exact .inl ⟨fun d hd => absurd hd List.not_mem_nil, rfl⟩
  | append_singleton depths d ih =>
      rw [List.foldl_append, List.foldl_cons, List.foldl_nil]
      by_cases hd : isFinite d = true
      · obtain ⟨hlow, hhigh⟩ := isFinite_eq_true.mp hd
        right
        rcases ih with ⟨hnone, heq⟩ | ⟨low, high, heq, hends⟩
        · refine ⟨d, d, ?_, .first hnone hd⟩
          rw [heq, DepthRange.widen, if_pos hd]
          exact Prod.ext (lesser_of_lt hhigh) (greater_of_lt hlow)
        · refine ⟨_, _, ?_, hends.widen hd⟩
          rw [heq, DepthRange.widen, if_pos hd]
      · have hd' := Bool.not_eq_true _ ▸ hd
        rw [DepthRange.widen, if_neg hd]
        rcases ih with ⟨hnone, heq⟩ | ⟨low, high, heq, hends⟩
        · refine .inl ⟨fun e he => ?_, heq⟩
          rcases List.mem_append.mp he with he | he
          · exact hnone e he
          · cases List.mem_singleton.mp he
            exact hd'
        · exact .inr ⟨low, high, heq, hends.skip hd'⟩

theorem scan_cases (depths : Array Float32) :
    (∀ d ∈ depths, isFinite d = false) ∨
      ∃ low high, Ends low high depths.toList ∧
        scan depths = if low < high then .span low (1.0 / (high - low)) else .flat := by
  have hscan : scan depths = ofExtent (extent depths).1 (extent depths).2 := rfl
  rcases foldl_widen depths.toList with ⟨hnone, -⟩ | ⟨low, high, heq, hends⟩
  · exact .inl fun d hd => hnone d (Array.mem_toList_iff.mpr hd)
  · refine .inr ⟨low, high, hends, ?_⟩
    have hle := (hends.between hends.low_mem hends.low_isFinite).2
    rw [hscan, extent_eq, heq, ofExtent, if_neg (not_lt_of_le hle)]

/-! ## Gray values -/

variable {range : DepthRange} {low high d e z w : Float32} {depths : Array Float32}

theorem normalize_of_not_isFinite (hd : isFinite d = false) : range.normalize d = 1.0 := by
  unfold normalize
  rw [hd]
  rfl

theorem normalize_flat (hd : isFinite d = true) : flat.normalize d = 0.0 := by
  rw [normalize, hd]
  rfl

theorem normalize_span (low scale : Float32) (hd : isFinite d = true) :
    (span low scale).normalize d = lesser ((d - low) * scale) 1.0 := by
  rw [normalize, hd]
  rfl

theorem lesser_one_between (hz : ¬ z < 0.0) : 0.0 ≤ lesser z 1.0 ∧ lesser z 1.0 ≤ 1.0 := by
  have hone : lesser z 1.0 ≤ 1.0 := lesser_le_right (by decide)
  refine ⟨le_of_not_lt (by decide) (self_le_of_le_left hone) fun hlt => ?_, hone⟩
  exact (lesser_lt_iff.mp hlt).elim hz (by decide)

/-- What is not a number becomes 1, so a value keeps its order with all that lie above it as a limit
from above. -/
theorem lesser_one_mono (h : ∀ {t}, w < t → z < t) : lesser z 1.0 ≤ lesser w 1.0 := by
  have hle (z : Float32) : lesser z 1.0 ≤ 1.0 := lesser_le_right (by decide)
  refine le_of_not_lt (self_le_of_le_left (hle z)) (self_le_of_le_left (hle w)) fun hlt => ?_
  rcases lesser_lt_iff.mp hlt with hlt | hlt
  · have hz := h hlt
    exact not_lt_of_le (lesser_le_left (le_self_of_lt hz).1) hz
  · exact not_lt_of_le (hle z) hlt

theorem Ends.span {depths : List Float32} (h : Ends low high depths) (hlt : low < high) :
    Binary32.Span (high - low) (Binary32.value high - Binary32.value low) := by
  have hlow := Binary32.value?_eq_some_value h.low_isFinite
  have hhigh := Binary32.value?_eq_some_value h.high_isFinite
  exact Binary32.span_of_lt hlow hhigh ((Binary32.lt_iff_of_values hlow hhigh).mp hlt)

theorem normalize_between (hd : d ∈ depths) :
    0.0 ≤ (scan depths).normalize d ∧ (scan depths).normalize d ≤ 1.0 := by
  by_cases hfinite : isFinite d = true
  · rcases scan_cases depths with hnone | ⟨low, high, hends, hscan⟩
    · rw [hnone d hd] at hfinite
      cases hfinite
    · have hlow := (hends.between (Array.mem_toList_iff.mpr hd) hfinite).1
      rw [hscan]
      split
      · next hlt =>
        rw [normalize_span low _ hfinite]
        exact lesser_one_between ((hends.span hlt).not_scaled_lt_zero
          (Binary32.zero_le_sub hends.low_isFinite hfinite hlow))
      · rw [normalize_flat hfinite]
        decide
  · rw [normalize_of_not_isFinite (Bool.not_eq_true _ ▸ hfinite)]
    decide

theorem normalize_mono (hd : d ∈ depths) (hdFinite : isFinite d = true)
    (heFinite : isFinite e = true) (hde : d ≤ e) :
    (scan depths).normalize d ≤ (scan depths).normalize e := by
  rcases scan_cases depths with hnone | ⟨low, high, hends, hscan⟩
  · rw [hnone d hd] at hdFinite
    cases hdFinite
  · have hlow := (hends.between (Array.mem_toList_iff.mpr hd) hdFinite).1
    rw [hscan]
    split
    · next hlt =>
      rw [normalize_span low _ hdFinite, normalize_span low _ heFinite]
      refine lesser_one_mono ((hends.span hlt).scaled_lt
        (Binary32.zero_le_sub hends.low_isFinite hdFinite hlow)
        (Binary32.sub_mono_left hends.low_isFinite hdFinite heFinite hde))
    · rw [normalize_flat hdFinite, normalize_flat heFinite]
      decide

theorem byte_mono (hz : 0.0 ≤ z) (hzw : z ≤ w) (hw : w ≤ 1.0) :
    (z * 255.0).toUInt8 ≤ (w * 255.0).toUInt8 := by
  have hunder {x y : Float32} (h : x ≤ y) : Under (x * 255.0) (y * 255.0) :=
    MonotoneScalar.mul_under_of_pos (by decide) (.of_le h)
  have hnumber {x : Float32} (hx : 0.0 ≤ x) : x * 255.0 ≤ x * 255.0 :=
    (hunder hx).number_right (t := -1.0) (by decide +kernel)
  have hscaled {x y : Float32} (hx : 0.0 ≤ x) (hxy : x ≤ y) : x * 255.0 ≤ y * 255.0 :=
    (hunder hxy).le (hnumber hx) (hnumber (le_trans hx hxy))
  have hfinite {x : Float32} (hx : 0.0 ≤ x) (hx' : x ≤ 1.0) : isFinite (x * 255.0) = true :=
    isFinite_eq_true.mpr
      ⟨lt_of_lt_of_le (by decide +kernel) (hscaled (self_le_of_le_left hx) hx),
        lt_of_le_of_lt (hscaled hx hx') (by decide +kernel)⟩
  exact Binary32.toUInt8_mono (hfinite hz (le_trans hzw hw)) (hfinite (le_trans hz hzw) hw)
    (hscaled hz hzw)

end DepthRange

namespace FrameOp

variable {canvas : Canvas} {layout : Layout} {depths : Array Float32}

/-- The gray values of all depths are numbers from 0 to 1, those of depths that are not finite are
1, and those of finite depths are in the order of the depths. So are the bytes. -/
theorem run_depth_ordered (hfits : canvas.Fits layout) (hdepth : canvas.depth = some depths) :
    let range := DepthRange.scan depths
    (FrameOp.depth.run canvas).color.rgb = grayRgb range layout.format depths ∧
    ((FrameOp.depth.run canvas).albedo =
      canvas.albedo.map fun _ => depths.map fun d => .splat (range.normalize d)) ∧
    (∀ d ∈ depths, 0.0 ≤ range.normalize d ∧ range.normalize d ≤ 1.0) ∧
    (∀ d ∈ depths, isFinite d = false → range.normalize d = 1.0 ∧ range.toByte d = 255) ∧
    ∀ d ∈ depths, ∀ e ∈ depths, isFinite d = true → isFinite e = true → d ≤ e →
      range.normalize d ≤ range.normalize e ∧ range.toByte d ≤ range.toByte e := by
  obtain ⟨hcolor, halbedo⟩ := run_depth_gray hfits hdepth
  refine ⟨hcolor, halbedo, fun d hd => DepthRange.normalize_between hd, fun d hd hinfinite => ?_,
    fun d hd e he hdFinite heFinite hde => ?_⟩
  · have hone : (DepthRange.scan depths).normalize d = 1.0 :=
      DepthRange.normalize_of_not_isFinite hinfinite
    refine ⟨hone, ?_⟩
    rw [DepthRange.toByte, hone]
    decide +kernel
  · have hle := DepthRange.normalize_mono hd hdFinite heFinite hde
    exact ⟨hle, DepthRange.byte_mono (DepthRange.normalize_between hd).1 hle
      (DepthRange.normalize_between he).2⟩

/-- Depths so far apart that their span is too large for the format. -/
def farDepths : Array Float32 := #[1.0, 3e38, infinity, -3e38]

def farCanvas : Canvas where
  color := .blank .rgba8 4
  depth := some farDepths
  albedo := none
  normal := none

theorem run_depth_ordered_far :
    farCanvas.Fits ⟨4, 1, .rgba8, ⟨true, false, false⟩⟩ ∧ farCanvas.depth = some farDepths ∧
      DepthRange.scan farDepths = .span (-3e38) 0.0 ∧
      (FrameOp.depth.run farCanvas).color.rgb =
        .inl (farDepths.map fun d => .splat ((DepthRange.scan farDepths).toByte d)) ∧
      (DepthRange.scan farDepths).normalize infinity = 1.0 ∧
      (DepthRange.scan farDepths).toByte (-3e38) ≤ (DepthRange.scan farDepths).toByte 1.0 := by
  have hfits : farCanvas.Fits ⟨4, 1, .rgba8, ⟨true, false, false⟩⟩ := ⟨rfl, rfl, rfl, rfl⟩
  obtain ⟨hcolor, -, -, hinfinite, hordered⟩ := run_depth_ordered hfits rfl
  refine ⟨hfits, rfl, by decide +kernel, hcolor,
    (hinfinite infinity (by simp [farDepths]) (by decide)).1, ?_⟩
  exact (hordered (-3e38) (by simp [farDepths]) 1.0 (by simp [farDepths]) (by decide +kernel)
    (by decide +kernel) (by decide +kernel)).2

end FrameOp

end TileTracer
