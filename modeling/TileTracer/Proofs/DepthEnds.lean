import TileTracer.Proofs.DepthNormalization

namespace TileTracer

open Scalar OrderedScalar

namespace DepthRange

open Binary32

variable {low high d z : Float32} {depths : Array Float32}

theorem gray_zero (hz : rank? z = some 0) : value? z = some 0 ∧ (z * 255.0).toUInt8 = 0 := by
  have hvalue {z : Float32} (hz : rank? z = some 0) : value? z = some 0 :=
    value?_of_rank_eq (hz.trans rank?_zero.symm) value?_zero
  refine ⟨hvalue hz, UInt8.toNat_inj.mp ?_⟩
  have hscaled : rank? (z * 255.0) = some 0 :=
    (rank_zero_mul hz).trans (if_pos (by decide +kernel))
  rw [toNat_toUInt8 (hvalue hscaled), Nat.floor_zero]
  rfl

theorem gray_one (h : 1.0 ≤ z) (h' : z ≤ 1.0) : value? z = some 1 ∧ (z * 255.0).toUInt8 = 255 := by
  have hone : ((1.0 : Float32) * 255.0).toUInt8 = 255 := by decide +kernel
  have hzero : (0.0 : Float32) ≤ 1.0 := by decide
  refine ⟨value?_of_rank_eq (rank_eq_of_le h' h) (by decide +kernel), ?_⟩
  rw [← hone]
  exact UInt8.le_antisymm (byte_mono (le_trans hzero h) h' (self_le_of_le_right h'))
    (byte_mono hzero h h')

theorem byte_below_one {s : ℚ} (hz : value? z = some s) (hs : 1 - 1 / 2 ^ 21 ≤ s) (h : z < 1.0) :
    (z * 255.0).toUInt8 = 254 := by
  have hnear : value? (0.99999952316284 : Float32) = some (1 - 1 / 2 ^ 21) := by decide +kernel
  have hbyte : ((0.99999952316284 : Float32) * 255.0).toUInt8 = 254 := by decide +kernel
  have hbyte' : ((0.99999994 : Float32) * 255.0).toUInt8 = 254 := by decide +kernel
  have hlow : 0.99999952316284 ≤ z := le_of_not_lt (by decide +kernel) (le_self_of_lt h).1
    (mt (lt_iff_of_values hz hnear).mp (not_lt.mpr hs))
  -- There is no value between this one and 1.
  have hhigh : z ≤ 0.99999994 := by
    obtain ⟨k, l, hk, hl, hkl⟩ := lt_iff.mp h
    have hone : rank? (1.0 : Float32) = some 1065353216 := by decide +kernel
    cases hone.symm.trans hl
    have hnext : rank? (0.99999994 : Float32) = some 1065353215 := by decide +kernel
    exact le_iff.mpr ⟨k, _, hk, hnext, Int.le_of_lt_add_one hkl⟩
  have hzero : (0.0 : Float32) ≤ 0.99999952316284 := by decide +kernel
  refine UInt8.le_antisymm ?_ ?_
  · rw [← hbyte']
    exact byte_mono (le_trans hzero hlow) hhigh (by decide +kernel)
  · rw [← hbyte]
    exact byte_mono hzero hlow (le_of_lt h)

variable {depths : List Float32} (hends : Ends low high depths) (hlt : low < high)
  (hd : d ∈ depths) (hfinite : isFinite d = true)

include hends hlt hd hfinite

/-- The nearest depths become 0, or 1 if the span is narrow. -/
theorem normalize_nearest (hnearest : d ≤ low) :
    let z := (span low (1.0 / (high - low))).normalize d
    (1 / 2 ^ 128 < value high - value low → value? z = some 0 ∧ (z * 255.0).toUInt8 = 0) ∧
      (value high - value low ≤ 1 / 2 ^ 128 → value? z = some 1 ∧ (z * 255.0).toUInt8 = 255) := by
  have hrank := rank_sub_of_le hends.low_isFinite (hends.between hd hfinite).1 hnearest
  have hscaled := (hends.span hlt).rank_zero_scaled hrank
  rw [normalize_span low _ hfinite]
  constructor
  · intro hwide
    rw [if_pos hwide] at hscaled
    have hle : (d - low) * (1.0 / (high - low)) ≤ 0.0 :=
      le_iff.mpr ⟨0, 0, hscaled, rank?_zero, le_rfl⟩
    have hone : ¬ (1.0 : Float32) < (d - low) * (1.0 / (high - low)) := fun hlt =>
      absurd (lt_of_lt_of_le hlt hle) (by decide)
    rw [lesser_eq_left (le_self_iff.mpr ⟨0, hscaled⟩) hone]
    exact gray_zero hscaled
  · intro hnarrow
    rw [if_neg (not_lt.mpr hnarrow)] at hscaled
    have hnumber : ¬ (d - low) * (1.0 / (high - low)) ≤ (d - low) * (1.0 / (high - low)) := fun h => by
      obtain ⟨k, hk⟩ := le_self_iff.mp h
      cases hscaled.symm.trans hk
    rw [lesser_of_not_number hnumber]
    exact gray_one (by decide) (by decide)

/-- The farthest depths become 1, or a little less if the span times its reciprocal is below 1. -/
theorem normalize_farthest (hfarthest : high ≤ d) :
    let z := (span low (1.0 / (high - low))).normalize d
    (¬ (high - low) * (1.0 / (high - low)) < 1.0 → value? z = some 1 ∧ (z * 255.0).toUInt8 = 255) ∧
      ((high - low) * (1.0 / (high - low)) < 1.0 → z < 1.0 ∧
        (∃ s, value? z = some s ∧ 1 - 1 / 2 ^ 21 ≤ s) ∧ (z * 255.0).toUInt8 = 254) := by
  have hspan := hends.span hlt
  have hle := (hends.between hd hfinite).2
  have hdc : d - low ≤ high - low :=
    sub_mono_left hends.low_isFinite hfinite hends.high_isFinite hle
  have hcd : high - low ≤ d - low :=
    sub_mono_left hends.low_isFinite hends.high_isFinite hfinite hfarthest
  have hzero := zero_le_sub hends.low_isFinite hends.high_isFinite (le_of_lt hlt)
  rw [normalize_span low _ hfinite]
  constructor
  · intro hfull
    have hone : (1.0 : Float32) ≤ 1.0 := by decide
    have hcap : lesser ((d - low) * (1.0 / (high - low))) 1.0 ≤ 1.0 := lesser_le_right hone
    refine gray_one (le_of_not_lt hone (self_le_of_le_left hcap) fun hlt => ?_) hcap
    rcases lesser_lt_iff.mp hlt with hlt | hlt
    · exact hfull (hspan.scaled_lt hzero hcd hlt)
    · exact lt_irrefl _ hlt
  · intro hshort
    have hlt := hspan.scaled_lt (le_trans hzero hcd) hdc hshort
    obtain ⟨s, hs, hnear⟩ := hspan.value_scaled hdc hcd hlt
    rw [lesser_eq_left (le_self_of_lt hlt).1 (lt_asymm hlt)]
    exact ⟨hlt, ⟨s, hs, hnear⟩, byte_below_one hs hnear hlt⟩

end DepthRange

namespace FrameOp

open Binary32 (value value?)

variable {canvas : Canvas} {layout : Layout} {depths : Array Float32}

/-- The gray values and bytes of the least and the greatest finite depths, if these are apart. The
least become 0 unless they are so near to the greatest that the reciprocal of the span is too large
for the format; then they become 1. The greatest become 1 unless the span times its reciprocal comes
out below 1; then they stay below 1, and their byte is 254. -/
theorem run_depth_ends (hfits : canvas.Fits layout) (hdepth : canvas.depth = some depths)
    (hapart : ∃ d ∈ depths, ∃ e ∈ depths, isFinite d = true ∧ isFinite e = true ∧ d < e) :
    let range := DepthRange.scan depths
    (FrameOp.depth.run canvas).color.rgb = grayRgb range layout.format depths ∧
    ((FrameOp.depth.run canvas).albedo =
      canvas.albedo.map fun _ => depths.map fun d => .splat (range.normalize d)) ∧
    ∃ low ∈ depths, ∃ high ∈ depths, isFinite low = true ∧ isFinite high = true ∧
      (∀ d ∈ depths, isFinite d = true → low ≤ d ∧ d ≤ high) ∧
      (∀ d ∈ depths, isFinite d = true → d ≤ low →
        (1 / 2 ^ 128 < value high - value low →
          value? (range.normalize d) = some 0 ∧ range.toByte d = 0) ∧
        (value high - value low ≤ 1 / 2 ^ 128 →
          value? (range.normalize d) = some 1 ∧ range.toByte d = 255)) ∧
      ∀ d ∈ depths, isFinite d = true → high ≤ d →
        (¬ (high - low) * (1.0 / (high - low)) < 1.0 →
          value? (range.normalize d) = some 1 ∧ range.toByte d = 255) ∧
        ((high - low) * (1.0 / (high - low)) < 1.0 → range.normalize d < 1.0 ∧
          (∃ s, value? (range.normalize d) = some s ∧ 1 - 1 / 2 ^ 21 ≤ s) ∧
          range.toByte d = 254) := by
  obtain ⟨hcolor, halbedo⟩ := run_depth_gray hfits hdepth
  refine ⟨hcolor, halbedo, ?_⟩
  obtain ⟨d, hd, e, he, hdFinite, heFinite, hde⟩ := hapart
  rcases DepthRange.scan_cases depths with hnone | ⟨low, high, hends, hscan⟩
  · rw [hnone d hd] at hdFinite
    cases hdFinite
  · have hbetween {d : Float32} (hd : d ∈ depths) (hfinite : isFinite d = true) :=
      hends.between (Array.mem_toList_iff.mpr hd) hfinite
    have hlt : low < high := lt_of_le_of_lt (hbetween hd hdFinite).1
      (lt_of_lt_of_le hde (hbetween he heFinite).2)
    rw [if_pos hlt] at hscan
    rw [hscan]
    refine ⟨low, Array.mem_toList_iff.mp hends.low_mem, high,
      Array.mem_toList_iff.mp hends.high_mem, hends.low_isFinite, hends.high_isFinite,
      fun d hd hfinite => hbetween hd hfinite, fun d hd hfinite hnearest => ?_,
      fun d hd hfinite hfarthest => ?_⟩
    · exact DepthRange.normalize_nearest hends hlt (Array.mem_toList_iff.mpr hd) hfinite hnearest
    · exact DepthRange.normalize_farthest hends hlt (Array.mem_toList_iff.mpr hd) hfinite hfarthest

def pairCanvas (near far : Float32) : Canvas where
  color := .blank .rgba8 2
  depth := some #[near, far]
  albedo := some (.replicate 2 .zero)
  normal := none

theorem pairCanvas_fits (near far : Float32) :
    (pairCanvas near far).Fits ⟨2, 1, .rgba8, ⟨true, true, false⟩⟩ := ⟨rfl, rfl, rfl, rfl⟩

theorem run_depth_ends_pair :
    (pairCanvas 2.0 43.0).Fits ⟨2, 1, .rgba8, ⟨true, true, false⟩⟩ ∧
      (∃ d ∈ (#[2.0, 43.0] : Array Float32), ∃ e ∈ (#[2.0, 43.0] : Array Float32),
        isFinite d = true ∧ isFinite e = true ∧ d < e) ∧
      (DepthRange.scan #[2.0, 43.0]).toByte 2.0 = 0 ∧
      (DepthRange.scan #[2.0, 43.0]).toByte 43.0 = 254 := by
  have hfits := pairCanvas_fits 2.0 43.0
  have hnear : isFinite (2.0 : Float32) = true := by decide +kernel
  have hfar : isFinite (43.0 : Float32) = true := by decide +kernel
  have hapart : ∃ d ∈ (#[2.0, 43.0] : Array Float32), ∃ e ∈ (#[2.0, 43.0] : Array Float32),
      isFinite d = true ∧ isFinite e = true ∧ d < e :=
    ⟨2.0, by simp, 43.0, by simp, hnear, hfar, by decide +kernel⟩
  obtain ⟨-, -, low, hlow, high, hhigh, -, -, hbetween, hnearest, hfarthest⟩ :=
    run_depth_ends hfits rfl hapart
  obtain rfl : low = 2.0 := by
    rcases List.mem_pair.mp (Array.mem_toList_iff.mpr hlow) with rfl | rfl
    · rfl
    · exact absurd (hbetween 2.0 (by simp) hnear).1 (by decide +kernel)
  obtain rfl : high = 43.0 := by
    rcases List.mem_pair.mp (Array.mem_toList_iff.mpr hhigh) with rfl | rfl
    · exact absurd (hbetween 43.0 (by simp) hfar).2 (by decide +kernel)
    · rfl
  have hspan : (1 : ℚ) / 2 ^ 128 < value 43.0 - value 2.0 := by decide +kernel
  exact ⟨hfits, hapart, ((hnearest 2.0 (by simp) hnear (by decide +kernel)).1 hspan).2,
    ((hfarthest 43.0 (by simp) hfar (by decide +kernel)).2 (by decide +kernel)).2.2⟩

/-- Two depths 41 apart are not spread over all of the gray scale, and two that are very near to
each other become equally bright. -/
theorem run_depth_ends_missed :
    (0.0 : Float32) < 41.0 ∧
      (FrameOp.depth.run (pairCanvas 0.0 41.0)).color.rgb = .inl #[.splat 0, .splat 254] ∧
      (0.0 : Float32) < 7.346839692639297e-40 ∧
      (FrameOp.depth.run (pairCanvas 0.0 7.346839692639297e-40)).color.rgb =
        .inl #[.splat 255, .splat 255] := by
  decide +kernel

end FrameOp

end TileTracer
