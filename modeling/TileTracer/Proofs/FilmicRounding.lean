import TileTracer.Proofs.FilmicCurve

namespace TileTracer.Filmic

open Scalar Binary32

variable {x y u w slope base : Float32} {r s p q n d p' q' n' d' : ℚ}

/-! ## The exact curve -/

def exactRamp (c b r : ℚ) : ℚ := r * (c * r + b)

/-- The numerator without rounding; the coefficients are the values of `2.51` and `0.03`. -/
def exactNumerator (r : ℚ) : ℚ := exactRamp (10527703 / 2 ^ 22) (16106127 / 2 ^ 29) r

/-- The denominator without rounding; the coefficients are the values of `2.43`, `0.59` and
`0.14`. -/
def exactDenominator (r : ℚ) : ℚ :=
  exactRamp (10192159 / 2 ^ 22) (9898557 / 2 ^ 24) r + 9395241 / 2 ^ 26

/-- By how much the exact quotient rises, up to the product of the denominators. -/
def rise (r s : ℚ) : ℚ :=
  (10527703 / 2 ^ 22 * (9898557 / 2 ^ 24) - 16106127 / 2 ^ 29 * (10192159 / 2 ^ 22)) * (r * s) +
    10527703 / 2 ^ 22 * (9395241 / 2 ^ 26) * (r + s) + 16106127 / 2 ^ 29 * (9395241 / 2 ^ 26)

theorem cross_sub (r s : ℚ) :
    exactNumerator s * exactDenominator r - exactNumerator r * exactDenominator s =
      (s - r) * rise r s := by
  unfold exactNumerator exactDenominator exactRamp rise
  ring

theorem rise_nonneg (hr : 0 ≤ r) (hs : 0 ≤ s) : 0 ≤ rise r s := by
  have hcoefficient : (0 : ℚ) ≤ 10527703 / 2 ^ 22 * (9898557 / 2 ^ 24) -
      16106127 / 2 ^ 29 * (10192159 / 2 ^ 22) := by norm_num
  unfold rise
  have := mul_nonneg hcoefficient (mul_nonneg hr hs)
  positivity

theorem cross_le (hr : 0 ≤ r) (hrs : r ≤ s) :
    exactNumerator r * exactDenominator s ≤ exactNumerator s * exactDenominator r := by
  rw [← sub_nonneg, cross_sub]
  exact mul_nonneg (sub_nonneg.mpr hrs) (rise_nonneg hr (hr.trans hrs))

/-- Between radiances apart the exact quotient rises by more than roundings can take away. -/
theorem cross_gap (hr : 0 ≤ r) (hrs : (1 + 1 / 2 ^ 15) * r ≤ s) (hs : s ≤ 29 / 4) :
    (1 + 15 / 2 ^ 24) * (exactNumerator r * exactDenominator s) ≤
      exactNumerator s * exactDenominator r := by
  have hs0 : 0 ≤ s := by linarith
  have hrise := rise_nonneg hr hs0
  have hsquare : s * s ≤ 29 / 4 * s := mul_le_mul_of_nonneg_right hs hs0
  have hcube : r * (s * s) ≤ r * (29 / 4 * s) := mul_le_mul_of_nonneg_left hsquare hr
  have hrs0 := mul_nonneg hr hs0
  have hslope : 15 / 2 ^ 24 * ((10527703 / 2 ^ 22 * r + 16106127 / 2 ^ 29) * exactDenominator s) ≤
      1 / 2 ^ 15 * rise r s := by
    unfold exactDenominator exactRamp rise
    linarith
  calc (1 + 15 / 2 ^ 24) * (exactNumerator r * exactDenominator s)
      = exactNumerator r * exactDenominator s + r * (15 / 2 ^ 24 *
          ((10527703 / 2 ^ 22 * r + 16106127 / 2 ^ 29) * exactDenominator s)) := by
        unfold exactNumerator exactRamp
        ring
    _ ≤ exactNumerator r * exactDenominator s + r * (1 / 2 ^ 15 * rise r s) := by
        gcongr
    _ ≤ exactNumerator r * exactDenominator s + (s - r) * rise r s := by
        have : r * (1 / 2 ^ 15) ≤ s - r := by linarith
        have := mul_le_mul_of_nonneg_right this hrise
        linarith
    _ = exactNumerator s * exactDenominator r := by
        rw [← cross_sub]
        ring

theorem exact_one_le (hr : 29 / 4 ≤ r) :
    (1 + 65 / 2 ^ 28) * exactDenominator r ≤ (1 - 49 / 2 ^ 28) * exactNumerator r := by
  have hsquare := mul_nonneg (sub_nonneg.mpr hr) (sub_nonneg.mpr hr)
  unfold exactNumerator exactDenominator exactRamp
  linarith

/-! ## The rounded curve -/

/-- A numerator and a denominator up to a few roundings. -/
structure Near (p q n d : ℚ) : Prop where
  numerator : |p - n| ≤ 49 / 2 ^ 28 * n
  denominator : |q - d| ≤ 65 / 2 ^ 28 * d

theorem ramp_computes {c b : ℚ} (hslope : value? slope = some c) (hbase : value? base = some b)
    (hx : value? x = some r) (hc : 1 / 2 ^ 29 ≤ c) (hb : 1 / 2 ^ 29 ≤ b) (hr : 1 / 2 ^ 29 ≤ r) :
    Computes (ramp slope base x) (exactRamp c b r) (exactRamp c b r) 3 3 := by
  have hslope := Computes.entry hslope
  have hbase := Computes.entry hbase
  have hx := Computes.entry hx
  rw [magnitude_of_le hc] at hslope
  rw [magnitude_of_le hb] at hbase
  rw [magnitude_of_le hr] at hx
  have hline : Computes (slope * x + base) (c * r + b) (c * r + b) 2 2 :=
    (hslope.mul hx (by decide)).add ((hbase.later (by decide)).higher (by decide)) (by decide)
  exact hx.mul hline (by decide)

theorem Fraction.near (h : Fraction x p q) (hx : value? x = some r) (hr : 1 / 2 ^ 29 ≤ r) :
    Near p q (exactNumerator r) (exactDenominator r) := by
  have hnumerator : Computes (Filmic.numerator x) (exactNumerator r) (exactNumerator r) 3 3 :=
    ramp_computes (by decide +kernel) (by decide +kernel) hx (by norm_num) (by norm_num) hr
  have hramp : Computes (ramp 2.43 0.59 x)
      (exactRamp (10192159 / 2 ^ 22) (9898557 / 2 ^ 24) r)
      (exactRamp (10192159 / 2 ^ 22) (9898557 / 2 ^ 24) r) 3 3 :=
    ramp_computes (by decide +kernel) (by decide +kernel) hx (by norm_num) (by norm_num) hr
  have hbase : Computes 0.14 (9395241 / 2 ^ 26) (magnitude (9395241 / 2 ^ 26)) 0 1 :=
    .entry (by decide +kernel)
  rw [magnitude_of_le (by norm_num)] at hbase
  have hdenominator :
      Computes (Filmic.denominator x) (exactDenominator r) (exactDenominator r) 4 3 :=
    hramp.add ((hbase.later (by decide)).higher (by decide)) (by decide)
  refine ⟨(hnumerator.error h.numerator).trans ?_, (hdenominator.error h.denominator).trans ?_⟩
  · exact mul_le_mul_of_nonneg_right (by norm_num [stretch, roundoff]) hnumerator.mass_nonneg
  · exact mul_le_mul_of_nonneg_right (by norm_num [stretch, roundoff]) hdenominator.mass_nonneg

namespace Near

variable (h : Near p q n d) (h' : Near p' q' n' d')

include h

theorem exact_nonneg : 0 ≤ n ∧ 0 ≤ d := by
  have hn := (abs_nonneg _).trans h.numerator
  have hd := (abs_nonneg _).trans h.denominator
  exact ⟨by linarith, by linarith⟩

include h'

/-- Cross products of near fractions are ordered as the exact ones, up to fifteen roundings. -/
theorem cross_le {e : ℚ} (he : 0 ≤ e) (hcross : (1 + 15 / 2 ^ 24) * (n * d') ≤ e * (n' * d)) :
    p * q' ≤ e * (p' * q) := by
  obtain ⟨hn, hd⟩ := h.exact_nonneg
  obtain ⟨hn', hd'⟩ := h'.exact_nonneg
  have hp : p ≤ (1 + 49 / 2 ^ 28) * n := by linarith [(abs_le.mp h.numerator).2]
  have hq' : q' ≤ (1 + 65 / 2 ^ 28) * d' := by linarith [(abs_le.mp h'.denominator).2]
  have hp' : (1 - 49 / 2 ^ 28) * n' ≤ p' := by linarith [(abs_le.mp h'.numerator).1]
  have hq : (1 - 65 / 2 ^ 28) * d ≤ q := by linarith [(abs_le.mp h.denominator).1]
  have hq0 : 0 ≤ q' := by linarith [(abs_le.mp h'.denominator).1]
  have hp0 : 0 ≤ p' := by linarith
  have hnd := mul_nonneg hn hd'
  calc p * q' ≤ (1 + 49 / 2 ^ 28) * n * ((1 + 65 / 2 ^ 28) * d') :=
        mul_le_mul hp hq' hq0 (by positivity)
    _ ≤ (1 - 49 / 2 ^ 28) * (1 - 65 / 2 ^ 28) * ((1 + 15 / 2 ^ 24) * (n * d')) := by linarith
    _ ≤ (1 - 49 / 2 ^ 28) * (1 - 65 / 2 ^ 28) * (e * (n' * d)) :=
        mul_le_mul_of_nonneg_left hcross (by norm_num)
    _ = e * ((1 - 49 / 2 ^ 28) * n' * ((1 - 65 / 2 ^ 28) * d)) := by ring
    _ ≤ e * (p' * q) := mul_le_mul_of_nonneg_left
        (mul_le_mul hp' hq (mul_nonneg (by norm_num) hd) hp0) he

end Near

theorem value?_dark : value? dark = some (1 / 2 ^ 27) := by decide +kernel

theorem value?_bright : value? (7.25 : Float32) = some (29 / 4) := by decide +kernel

theorem one_le_ratio (hx : 7.25 ≤ x) (h : x < limit) : 1.0 ≤ ratio x := by
  have hx0 : 0.0 ≤ x := le_trans (by decide +kernel) hx
  rcases infinite_or_fraction hx0 h with hinfinite | ⟨p, q, hfraction⟩
  · have hone : rank? (1.0 : Float32) = some 1065353216 := by decide +kernel
    exact le_iff.mpr ⟨_, _, hone, hinfinite, by decide⟩
  · obtain ⟨r, hr⟩ := isFinite_iff.mp
      (isFinite_of_nonneg hx0 (lt_of_le_of_lt (le_brightest h) (by decide +kernel)))
    have hlarge := rational_le_of_le value?_bright hr hx
    have hnear := hfraction.near hr (by linarith)
    refine hfraction.le_ratio value?_one ((one_le_div hfraction.pos).mpr ?_)
    linarith [exact_one_le hlarge, (abs_le.mp hnear.numerator).1,
      (abs_le.mp hnear.denominator).2]

theorem Fraction.exists_ratio (h : Fraction x p q) (hle : p / q ≤ 2) :
    ∃ z, value? (ratio x) = some z ∧ |z - p / q| ≤ roundoff * (p / q) + halfStep := by
  have hnonneg := div_nonneg h.nonneg h.pos.le
  obtain ⟨k, hk, hlands⟩ := quotient_lands h.numerator h.denominator h.pos
  have hk : rank? (ratio x) = some k := hk
  have habs : |p / q| ≤ 2 ^ 1 := by rwa [abs_of_nonneg hnonneg, pow_one]
  obtain ⟨hbottom, htop⟩ := hlands.finite habs (by decide)
  obtain ⟨z, hz⟩ := isFinite_iff.mp (isFinite_of_rank hk hbottom htop)
  have herror := (hlands.roundedFrom (proper_unpack (ratio x)) hz hk).error
  rw [abs_of_nonneg hnonneg] at herror
  exact ⟨z, hz, herror⟩

theorem exists_ratios_le (hx : Fraction x p q) (hy : Fraction y p' q')
    (hle : p / q ≤ (1 + 15 / 2 ^ 24) * (p' / q')) (hlow : 1 / 2 ^ 64 ≤ p' / q')
    (hhigh : p' / q' ≤ 1) :
    ∃ z z', value? (ratio x) = some z ∧ value? (ratio y) = some z' ∧
      z ≤ (1 + 9 / 2 ^ 23) * z' := by
  obtain ⟨z, hz, herror⟩ := hx.exists_ratio (by linarith)
  obtain ⟨z', hz', herror'⟩ := hy.exists_ratio (by linarith)
  refine ⟨z, z', hz, hz', ?_⟩
  unfold roundoff halfStep at herror herror'
  have hupper := (abs_le.mp herror).2
  have hlower := (abs_le.mp herror').1
  norm_num at hle hlow hupper hlower ⊢
  linarith

theorem Near.large (h : Near p q (exactNumerator r) (exactDenominator r)) (hpos : 0 < q)
    (hlow : 1 / 2 ^ 29 ≤ r) (hhigh : r ≤ 29 / 4) : 1 / 2 ^ 64 ≤ p / q := by
  have hr0 : 0 ≤ r := le_trans (by positivity) hlow
  have hnumerator : 1 / 2 ^ 36 ≤ exactNumerator r := by
    unfold exactNumerator exactRamp
    linarith [mul_nonneg hr0 hr0]
  have hdenominator : exactDenominator r ≤ 2 ^ 8 := by
    have hsquare : r * r ≤ 29 / 4 * r := mul_le_mul_of_nonneg_right hhigh hr0
    unfold exactDenominator exactRamp
    linarith
  rw [le_div_iff₀ hpos]
  linarith [(abs_le.mp h.numerator).1, (abs_le.mp h.denominator).2]

/-! ## The order of radiances -/

/-- Radiances so near to each other that the roundings of the curve may swap their order. -/
structure Close (x y : Float32) : Prop where
  dark : 1 / 2 ^ 27 < value y
  bright : value y < 29 / 4
  close : value y < (1 + 1 / 2 ^ 15) * value x

theorem ratio_order_of_finite (hx : Fraction x p q) (hy : Fraction y p' q')
    (hr : value? x = some r) (hs : value? y = some s) (hrs : r ≤ s) (hlow : 1 / 2 ^ 29 ≤ r)
    (hhigh : s ≤ 29 / 4) :
    ratio x ≤ ratio y ∨ s < (1 + 1 / 2 ^ 15) * r ∧ (1.0 ≤ ratio y ∨
      ∃ z z', value? (ratio x) = some z ∧ value? (ratio y) = some z' ∧
        z ≤ (1 + 9 / 2 ^ 23) * z') := by
  have hr0 : 0 ≤ r := le_trans (by positivity) hlow
  have hnear := hx.near hr hlow
  have hnear' := hy.near hs (hlow.trans hrs)
  by_cases hgap : (1 + 1 / 2 ^ 15) * r ≤ s
  · have hcross := hnear.cross_le hnear' (e := 1) zero_le_one
      (by rw [one_mul]; exact cross_gap hr0 hgap hhigh)
    rw [one_mul] at hcross
    exact .inl (hx.ratio_le hy ((div_le_div_iff₀ hx.pos hy.pos).mpr hcross))
  · refine .inr ⟨not_le.mp hgap, ?_⟩
    by_cases hone : q' ≤ p'
    · exact .inl (hy.le_ratio value?_one ((one_le_div hy.pos).mpr hone))
    · have hcross := hnear.cross_le hnear' (e := 1 + 15 / 2 ^ 24) (by positivity)
        (mul_le_mul_of_nonneg_left (cross_le hr0 hrs) (by positivity))
      refine .inr (exists_ratios_le hx hy ?_ (hnear'.large hy.pos (hlow.trans hrs) hhigh)
        ((div_le_one hy.pos).mpr (not_le.mp hone).le))
      rw [← mul_div_assoc, div_le_div_iff₀ hx.pos hy.pos, mul_assoc]
      exact hcross

/-- From here on no product in the curve comes near the finest step. -/
def dim : Float32 := 1.862645149230957e-9

theorem value?_dim : value? dim = some (1 / 2 ^ 29) := by decide +kernel

/-- Dim radiance is too far below what lies beyond the dark to swap places with it. -/
theorem ratio_le_of_dim (hx : 0.0 ≤ x) (hdim : x ≤ dim) (hdark : dark ≤ y) (hy : y ≤ 7.25) :
    ratio x ≤ ratio y := by
  have hy0 : 0.0 ≤ y := le_trans (by decide +kernel) hdark
  have hbelow : ratio x ≤ ratio dim := ratio_le_of_dark hx hdim (by decide +kernel)
  obtain ⟨s, hs⟩ := isFinite_iff.mp
    (isFinite_of_nonneg hy0 (lt_of_le_of_lt hy (by decide +kernel)))
  have hlow := rational_le_of_le value?_dark hs hdark
  obtain ⟨p, q, hfraction⟩ :=
    exists_fraction_of_le (x := dim) (by decide +kernel) (by decide +kernel)
  obtain ⟨p', q', hfraction'⟩ := exists_fraction_of_le hy0 hy
  rcases ratio_order_of_finite hfraction hfraction' value?_dim hs (by linarith) le_rfl
    (rational_le_of_le hs value?_bright hy) with hle | ⟨hclose, -⟩
  · exact le_trans hbelow hle
  · linarith

theorem ratio_order (hx : 0.0 ≤ x) (hxy : x ≤ y) (hy : y < limit) :
    ratio x ≤ ratio y ∨ 1.0 ≤ ratio y ∨
      Close x y ∧ ∃ z z', value? (ratio x) = some z ∧ value? (ratio y) = some z' ∧
        z ≤ (1 + 9 / 2 ^ 23) * z' := by
  have hy0 := le_trans hx hxy
  have hself := self_le_of_le_right hxy
  -- Bright values are limited to 1, and in the dark only the numerator moves; a dim value is too far
  -- below any that is not dark. What remains is where errors are a share of the curve.
  by_cases hbright : 7.25 ≤ y
  · exact .inr (.inl (one_le_ratio hbright hy))
  by_cases hdark : y ≤ dark
  · exact .inl (ratio_le_of_dark hx hxy hdark)
  have hhigh : y < 7.25 := lt_of_not_le (by decide +kernel) hself hbright
  have hlow : dark < y := lt_of_not_le hself (by decide +kernel) hdark
  by_cases hdim : x ≤ dim
  · exact .inl (ratio_le_of_dim hx hdim (le_of_lt hlow) (le_of_lt hhigh))
  have hdim : dim < x := lt_of_not_le (self_le_of_le_left hxy) (by decide +kernel) hdim
  have hfinite {z : Float32} (hz : 0.0 ≤ z) (hzy : z ≤ y) : ∃ t, value? z = some t :=
    isFinite_iff.mp (isFinite_of_nonneg hz
      (lt_of_le_of_lt hzy (lt_of_lt_of_le hhigh (by decide +kernel))))
  obtain ⟨r, hr⟩ := hfinite hx hxy
  obtain ⟨s, hs⟩ := hfinite hy0 hself
  have hdim := (lt_iff_of_values value?_dim hr).mp hdim
  have hlow := (lt_iff_of_values value?_dark hs).mp hlow
  have hbound := (lt_iff_of_values hs value?_bright).mp hhigh
  obtain ⟨p, q, hfraction⟩ := exists_fraction_of_le hx (le_trans hxy (le_of_lt hhigh))
  obtain ⟨p', q', hfraction'⟩ := exists_fraction_of_le hy0 (le_of_lt hhigh)
  rcases ratio_order_of_finite hfraction hfraction' hr hs (rational_le_of_le hr hs hxy) hdim.le
    hbound.le with hle | ⟨hclose, hone | hvalues⟩
  · exact .inl hle
  · exact .inr (.inl hone)
  · rw [← value_eq hs] at hlow hbound hclose
    rw [← value_eq hr] at hclose
    exact .inr (.inr ⟨⟨hlow, hbound, hclose⟩, hvalues⟩)

/-! ## The curve -/

theorem filmic_of_bright (hu : 7.25 ≤ u) (hlimit : u < limit) : value? (filmic u) = some 1 := by
  obtain ⟨hnonneg, hlimit⟩ := greater_zero hlimit
  have hle : u ≤ greater u 0.0 := le_greater_left (self_le_of_le_right hu)
  have hratio := one_le_ratio (le_trans hu hle) hlimit
  have hclamp := le_clamp (ratio_nonneg hnonneg hlimit) hratio (by decide)
  exact value?_of_rank_eq (rank_eq_of_le (clamp_le (ratio_nonneg hnonneg hlimit)).2 hclamp)
    (by decide +kernel)

/-- The curve keeps the order, but for radiances close to each other it does so up to roundings. -/
theorem filmic_order (h : u ≤ w) (hw : w < limit) :
    filmic u ≤ filmic w ∨
      Close u w ∧ value (filmic u) ≤ (1 + 9 / 2 ^ 23) * value (filmic w) := by
  have hu : u < limit := lt_of_le_of_lt h hw
  obtain ⟨hu0, hu'⟩ := greater_zero hu
  obtain ⟨hw0, hw'⟩ := greater_zero hw
  have hratio := ratio_nonneg hu0 hu'
  have hratio' := ratio_nonneg hw0 hw'
  obtain ⟨hle, hone⟩ := clamp_le hratio
  rcases ratio_order hu0 (greater_zero_le h) hw' with hup | hup | ⟨hclose, z, z', hz, hz', hnear⟩
  · exact .inl (le_clamp hratio' (le_trans hle hup) hone)
  · exact .inl (le_clamp hratio' (le_trans hone hup) hone)
  · by_cases hup : 1.0 ≤ ratio (greater w 0.0)
    · exact .inl (le_clamp hratio' (le_trans hone hup) hone)
    have hpos : 0 < value (greater w 0.0) := lt_trans (by positivity) hclose.dark
    have hpos' : 0 < value (greater u 0.0) := by linarith [hclose.close]
    have hsame : filmic w = ratio (greater w 0.0) := by
      rw [filmic_eq, clamp_unit hratio', if_neg fun h => hup (le_of_lt h)]
    have hfinite : isFinite (filmic u) = true :=
      isFinite_of_nonneg (filmic_unit hu).1 (lt_of_le_of_lt hone (by decide))
    have hvalue : value (filmic u) ≤ z := by
      rw [← value_eq hz]
      exact value_le_of_le hfinite (isFinite_iff.mpr ⟨z, hz⟩) hle
    rw [greater_zero_of_pos hpos, greater_zero_of_pos hpos'] at hclose
    refine .inr ⟨hclose, ?_⟩
    rw [hsame, value_eq hz']
    exact hvalue.trans hnear

end TileTracer.Filmic
