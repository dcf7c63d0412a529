import TileTracer.Proofs.FilmicRounding

namespace TileTracer.FrameOp

open Scalar Binary32

variable {canvas : Canvas} {pixels : Array (Vec4 Float32)} {exposure a b : Float32}

def radiances (pixels : Array (Vec4 Float32)) : List Float32 :=
  pixels.toList.flatMap fun c => [c.x, c.y, c.z]

theorem radiances_toneMap (exposure : Float32) (pixels : Array (Vec4 Float32)) :
    radiances (pixels.map (toneMapPixel exposure)) =
      (radiances pixels).map fun v => filmic (v * exposure) := by
  simp only [radiances, Array.toList_map, List.flatMap_map, List.map_flatMap]
  rfl

/-- Exposing finite radiance gives numbers, maybe infinite, in the same order. -/
theorem exposed_le (ha : isFinite a = true) (hb : isFinite b = true)
    (hexposure : isFinite exposure = true) (hnonneg : 0.0 ≤ exposure) (hab : a ≤ b) :
    a * exposure ≤ b * exposure := by
  have hlands {v : Float32} (hv : isFinite v = true) :=
    product_lands (proper_unpack v) (proper_unpack exposure) (value?_eq_some_value hv)
      (value?_eq_some_value hexposure)
  obtain ⟨k, hk, hka⟩ := hlands ha
  obtain ⟨l, hl, hlb⟩ := hlands hb
  have hexact := mul_le_mul_of_nonneg_right (value_le_of_le ha hb hab)
    (rational_le_of_le value?_zero (value?_eq_some_value hexposure) hnonneg)
  exact le_iff.mpr ⟨k, l, hk, hl, hka.mono hlb hexact⟩

/-- What the tone-mapping operation writes for finite radiance and a finite exposure that is not
negative. Below the limit of the curve a value is written that lies in the unit interval: 0 for
radiance that is not positive, and 1 for bright radiance. From the limit on, what is written is not
a number. The order of two radiances below the limit is kept, unless they are very near to each
other; then the value for the brighter one is less than the other by a few roundings at most. -/
theorem run_toneMap_range (hcolor : canvas.color = .floats pixels)
    (hexposure : isFinite exposure = true) (hnonneg : 0.0 ≤ exposure)
    (hfinite : ∀ v ∈ radiances pixels, isFinite v = true) :
    let written := fun v => filmic (v * exposure)
    (∃ pixels', (toneMap exposure).run canvas = { canvas with color := .floats pixels' } ∧
      radiances pixels' = (radiances pixels).map written ∧
      pixels'.map Vec4.w = pixels.map Vec4.w) ∧
    (∀ v ∈ radiances pixels,
      (v * exposure < Filmic.limit → 0.0 ≤ written v ∧ written v ≤ 1.0) ∧
      (v * exposure ≤ 0.0 → value? (written v) = some 0) ∧
      (7.25 ≤ v * exposure → v * exposure < Filmic.limit → value? (written v) = some 1) ∧
      (¬ v * exposure < Filmic.limit → ¬ written v ≤ written v)) ∧
    ∀ a ∈ radiances pixels, ∀ b ∈ radiances pixels, a ≤ b → b * exposure < Filmic.limit →
      written a ≤ written b ∨
        Filmic.Close (a * exposure) (b * exposure) ∧
          value (written a) ≤ (1 + 9 / 2 ^ 23) * value (written b) := by
  intro written
  refine ⟨⟨pixels.map (toneMapPixel exposure), ?_, radiances_toneMap exposure pixels, ?_⟩,
    fun v hv => ⟨Filmic.filmic_unit, Filmic.filmic_of_le_zero, Filmic.filmic_of_bright,
      fun hbright => ?_⟩, fun a ha b hb hab hlimit => ?_⟩
  · simp only [run, hcolor]
  · rw [Array.map_map]
    rfl
  · have hself := le_self_of_isFinite (hfinite v hv)
    have hnumber := exposed_le (hfinite v hv) (hfinite v hv) hexposure hnonneg hself
    exact Filmic.filmic_not_number (le_of_not_lt (by decide +kernel) hnumber hbright)
  · exact Filmic.filmic_order
      (exposed_le (hfinite a ha) (hfinite b hb) hexposure hnonneg hab) hlimit

def singlePixel (c : Vec4 Float32) : Canvas := ⟨.floats #[c], none, none, none⟩

theorem run_toneMap_range_overexposed :
    (singlePixel ⟨-1.0, 0.5, 6.0, 0.25⟩).color = .floats #[⟨-1.0, 0.5, 6.0, 0.25⟩] ∧
      isFinite (4.0 : Float32) = true ∧ (0.0 : Float32) ≤ 4.0 ∧
      (∀ v ∈ radiances #[⟨-1.0, 0.5, 6.0, 0.25⟩], isFinite v = true) ∧
      value? (filmic (-1.0 * 4.0)) = some 0 ∧
      0.0 ≤ filmic (0.5 * 4.0) ∧ filmic (0.5 * 4.0) ≤ 1.0 ∧
      value? (filmic (6.0 * 4.0)) = some 1 ∧ filmic (0.5 * 4.0) ≤ filmic (6.0 * 4.0) := by
  have hcolor : (singlePixel ⟨-1.0, 0.5, 6.0, 0.25⟩).color = .floats #[⟨-1.0, 0.5, 6.0, 0.25⟩] :=
    rfl
  have hexposure : isFinite (4.0 : Float32) = true := by decide +kernel
  have hnonneg : (0.0 : Float32) ≤ 4.0 := by decide
  have hfinite : ∀ v ∈ radiances #[⟨-1.0, 0.5, 6.0, 0.25⟩], isFinite v = true := by decide +kernel
  obtain ⟨-, hvalues, horder⟩ := run_toneMap_range hcolor hexposure hnonneg hfinite
  have hdark := (hvalues (-1.0) (by simp [radiances])).2.1 (by decide +kernel)
  have hmiddle := (hvalues 0.5 (by simp [radiances])).1 (by decide +kernel)
  have hbright := (hvalues 6.0 (by simp [radiances])).2.2.1 (by decide +kernel) (by decide +kernel)
  have hle := horder 0.5 (by simp [radiances]) 6.0 (by simp [radiances]) (by decide +kernel)
    (by decide +kernel)
  refine ⟨hcolor, hexposure, hnonneg, hfinite, hdark, hmiddle.1, hmiddle.2, hbright, ?_⟩
  exact hle.resolve_right fun h => absurd h.1.bright (by decide +kernel)

/-- Radiance that overflows the curve is not a number afterwards, and the brighter of two radiances
next to each other may become the darker one. -/
theorem run_toneMap_range_missed :
    (isFinite (1.2e19 : Float32) = true ∧ (8.0 : Float32) ≤ 1.2e19 ∧
      ((toneMap 1.0).run (singlePixel ⟨8.0, 1.2e19, 0.0, 1.0⟩)).color =
        .floats #[⟨1.0, 0.0 / 0.0, 0.0, 1.0⟩] ∧ ¬ (0.0 / 0.0 : Float32) ≤ 0.0 / 0.0) ∧
    (3.5649147 : Float32) ≤ 3.56491947 ∧
      ((toneMap 1.0).run (singlePixel ⟨3.5649147, 3.56491947, 0.0, 1.0⟩)).color =
        .floats #[⟨filmic 3.5649147, filmic 3.56491947, 0.0, 1.0⟩] ∧
      filmic 3.56491947 < filmic 3.5649147 := by
  decide +kernel

end TileTracer.FrameOp
