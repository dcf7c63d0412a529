import TileTracer.Frame.Operation
import TileTracer.Proofs.Binary32Spans

/-!
The curve is the quotient of two quadratics, and both rise. The numerator is the first to become too
large for the format, and the quotient is then limited to 1; where the denominator is too large as
well, the quotient is not a number. Up to there the curve stays in the unit interval.
-/

namespace TileTracer.Filmic

open Scalar Binary32
open OrderedScalar (le_self_of_lt)

/-- A quadratic that is zero at zero. -/
def ramp (slope base x : Float32) : Float32 := x * (slope * x + base)

def numerator (x : Float32) : Float32 := ramp 2.51 0.03 x

def denominator (x : Float32) : Float32 := ramp 2.43 0.59 x + 0.14

def ratio (x : Float32) : Float32 := numerator x / denominator x

theorem filmic_eq (v : Float32) : filmic v = clamp (ratio (greater v 0.0)) 0.0 1.0 := rfl

variable {x y slope base : Float32}

/-! ## Ramps keep the order -/

/-- The linear factor of a ramp starts above zero and does not fall. -/
structure Rising (slope base : Float32) : Prop where
  slope_pos : 0.0 < slope
  start_pos : 0.0 < slope * 0.0 + base
  start_finite : isFinite (slope * 0.0 + base) = true

theorem rising_numerator : Rising 2.51 0.03 :=
  ⟨by decide +kernel, by decide +kernel, by decide +kernel⟩

theorem rising_denominator : Rising 2.43 0.59 :=
  ⟨by decide +kernel, by decide +kernel, by decide +kernel⟩

namespace Rising

variable (h : Rising slope base)

include h

theorem line_under (hxy : x ≤ y) : Under (slope * x + base) (slope * y + base) := by
  rw [mul_swap slope, mul_swap slope]
  exact MonotoneScalar.add_under (MonotoneScalar.mul_under_of_pos h.slope_pos (.of_le hxy))
    (.refl base)

theorem line_pos (hx : 0.0 ≤ x) : 0.0 < slope * x + base := (h.line_under hx).below h.start_pos

theorem rank_ramp_zero (hx : 0.0 ≤ x) (hx' : x ≤ 0.0) : rank? (ramp slope base x) = some 0 := by
  have hfinite : isFinite (slope * x + base) = true := by
    obtain ⟨hlow, hhigh⟩ := isFinite_eq_true.mp h.start_finite
    exact isFinite_eq_true.mpr ⟨(h.line_under hx).below hlow, (h.line_under hx').above hhigh⟩
  exact (rank_zero_mul (rank_of_zero hx hx')).trans (if_pos hfinite)

theorem ramp_under (hx : 0.0 ≤ x) (hxy : x ≤ y) :
    Under (ramp slope base x) (ramp slope base y) := by
  by_cases hy : 0.0 < y
  · have hfactor : Under (x * (slope * x + base)) (y * (slope * x + base)) :=
      MonotoneScalar.mul_under_of_pos (h.line_pos hx) (.of_le hxy)
    refine hfactor.trans ?_
    rw [mul_swap y, ramp, mul_swap y]
    exact MonotoneScalar.mul_under_of_pos hy (h.line_under hxy)
  -- Both are zero, and products with zero keep no order.
  · have hy' : y ≤ 0.0 := le_of_not_lt (self_le_of_le_right hxy) (by decide) hy
    rw [under_iff, h.rank_ramp_zero hx (le_trans hxy hy'), h.rank_ramp_zero (le_trans hx hxy) hy']
    exact .refl _

theorem ramp_number (hx : 0.0 ≤ x) : ramp slope base x ≤ ramp slope base x := by
  have hstart : -infinity < ramp slope base 0.0 := lt_of_rank rank?_neg_infinity
    (h.rank_ramp_zero (by decide) (by decide)) (by decide)
  exact (h.ramp_under (by decide) hx).number_right hstart

theorem ramp_le (hx : 0.0 ≤ x) (hxy : x ≤ y) : ramp slope base x ≤ ramp slope base y :=
  (h.ramp_under hx hxy).le (h.ramp_number hx) (h.ramp_number (le_trans hx hxy))

end Rising

theorem numerator_le (hx : 0.0 ≤ x) (hxy : x ≤ y) : numerator x ≤ numerator y :=
  rising_numerator.ramp_le hx hxy

theorem numerator_nonneg (hx : 0.0 ≤ x) : 0.0 ≤ numerator x :=
  le_trans (by decide +kernel) (numerator_le (by decide) hx)

theorem denominator_under (hx : 0.0 ≤ x) (hxy : x ≤ y) :
    Under (denominator x) (denominator y) :=
  MonotoneScalar.add_under (rising_denominator.ramp_under hx hxy) (.refl _)

theorem denominator_pos (hx : 0.0 ≤ x) : 0.0 < denominator x :=
  (denominator_under (by decide) hx).below (by decide +kernel)

theorem denominator_le (hx : 0.0 ≤ x) (hxy : x ≤ y) : denominator x ≤ denominator y :=
  (denominator_under hx hxy).le (le_self_of_lt (denominator_pos hx)).2
    (le_self_of_lt (denominator_pos (le_trans hx hxy))).2

/-! ## Bright radiance -/

/-- The least radiance for which the denominator is too large for the format. -/
def limit : Float32 := 11833591750474072064.0

def brightest : Float32 := 11833590650962444288.0

theorem le_brightest (h : x < limit) : x ≤ brightest := by
  obtain ⟨k, l, hk, hl, hkl⟩ := lt_iff.mp h
  have hlimit : rank? limit = some 1596209501 := by decide +kernel
  have hbrightest : rank? brightest = some 1596209500 := by decide +kernel
  cases hlimit.symm.trans hl
  exact le_iff.mpr ⟨k, _, hk, hbrightest, Int.le_of_lt_add_one hkl⟩

/-- From the limit on, the quotient is one of infinities. -/
theorem ratio_not_number (h : limit ≤ x) : ¬ ratio x ≤ ratio x := by
  intro hself
  have hlimit : 0.0 ≤ limit := by decide +kernel
  have hnumerator : infinity ≤ numerator x :=
    le_trans (by decide +kernel) (numerator_le hlimit h)
  have hdenominator : infinity ≤ denominator x :=
    le_trans (by decide +kernel) (denominator_le hlimit h)
  obtain ⟨k, hk⟩ := le_self_iff.mp hself
  cases (rank_infinity_div_infinity (rank_of_infinity_le hnumerator)
    (rank_of_infinity_le hdenominator)).symm.trans hk

/-! ## Finite fractions -/

variable {p q p' q' : ℚ}

structure Fraction (x : Float32) (p q : ℚ) : Prop where
  numerator : value? (numerator x) = some p
  denominator : value? (denominator x) = some q
  nonneg : 0 ≤ p
  pos : 0 < q

theorem exists_denominator (hx : 0.0 ≤ x) (h : x < limit) :
    ∃ q, value? (denominator x) = some q ∧ 0 < q := by
  have hpos := denominator_pos hx
  have hhigh : denominator x < infinity :=
    lt_of_le_of_lt (denominator_le hx (le_brightest h)) (by decide +kernel)
  obtain ⟨q, hq⟩ := isFinite_iff.mp (isFinite_of_nonneg (le_of_lt hpos) hhigh)
  exact ⟨q, hq, (lt_iff_of_values value?_zero hq).mp hpos⟩

theorem exists_fraction (hx : 0.0 ≤ x) (h : x < limit) (hhigh : numerator x < infinity) :
    ∃ p q, Fraction x p q := by
  have hnonneg := numerator_nonneg hx
  obtain ⟨q, hq, hpos⟩ := exists_denominator hx h
  obtain ⟨p, hp⟩ := isFinite_iff.mp (isFinite_of_nonneg hnonneg hhigh)
  exact ⟨p, q, hp, hq, rational_le_of_le value?_zero hp hnonneg, hpos⟩

/-- The numerator may be too large while the denominator is not. -/
theorem infinite_or_fraction (hx : 0.0 ≤ x) (h : x < limit) :
    rank? (ratio x) = some infinitySteps ∨ ∃ p q, Fraction x p q := by
  by_cases hhigh : numerator x < infinity
  · exact .inr (exists_fraction hx h hhigh)
  · obtain ⟨q, hq, hpos⟩ := exists_denominator hx h
    have hinfinite : infinity ≤ numerator x :=
      le_of_not_lt (by decide) (self_le_of_le_right (numerator_nonneg hx)) hhigh
    exact .inl (rank_infinity_div (rank_of_infinity_le hinfinite) hq hpos)

theorem exists_fraction_of_le (hx : 0.0 ≤ x) (h : x ≤ 7.25) : ∃ p q, Fraction x p q :=
  exists_fraction hx (lt_of_le_of_lt h (by decide +kernel))
    (lt_of_le_of_lt (numerator_le hx h) (by decide +kernel))

theorem Fraction.ratio_le (hx : Fraction x p q) (hy : Fraction y p' q') (h : p / q ≤ p' / q') :
    ratio x ≤ ratio y :=
  div_le_div_of_values hx.numerator hx.denominator hy.numerator hy.denominator hx.pos hy.pos h

theorem Fraction.le_ratio {z : Float32} {t : ℚ} (h : Fraction x p q) (hz : value? z = some t)
    (hle : t ≤ p / q) : z ≤ ratio x := by
  obtain ⟨k, hk, -⟩ := place_of_rational (proper_unpack z) hz
  obtain ⟨l, hl, hlands⟩ := quotient_lands h.numerator h.denominator h.pos
  have hexact := (lands_rational (proper_unpack z) hz hk).1
  exact le_iff.mpr ⟨k, l, hk, hl, hexact.mono hlands hle⟩

theorem ratio_nonneg (hx : 0.0 ≤ x) (h : x < limit) : 0.0 ≤ ratio x := by
  rcases infinite_or_fraction hx h with hinfinite | ⟨p, q, hfraction⟩
  · exact le_iff.mpr ⟨0, _, rank?_zero, hinfinite, by decide⟩
  · exact hfraction.le_ratio value?_zero (div_nonneg hfraction.nonneg hfraction.pos.le)

/-- Up to here the denominator stays what it is at zero. -/
def dark : Float32 := 7.450580596923828e-9

theorem denominator_of_dark (hx : 0.0 ≤ x) (h : x ≤ dark) :
    value? (denominator x) = some (9395241 / 2 ^ 26) := by
  have hhigh : denominator x ≤ denominator 0.0 :=
    le_trans (denominator_le hx h) (by decide +kernel)
  have hlow : denominator 0.0 ≤ denominator x := denominator_le (by decide) hx
  exact value?_of_rank_eq (rank_eq_of_le hhigh hlow) (by decide +kernel)

/-- In the dark only the numerator moves, so the quotient keeps the order. -/
theorem ratio_le_of_dark (hx : 0.0 ≤ x) (hxy : x ≤ y) (hy : y ≤ dark) : ratio x ≤ ratio y := by
  have hend : dark ≤ 7.25 := by decide +kernel
  have hy0 := le_trans hx hxy
  obtain ⟨p, q, hfraction⟩ := exists_fraction_of_le hx (le_trans hxy (le_trans hy hend))
  obtain ⟨p', q', hfraction'⟩ := exists_fraction_of_le hy0 (le_trans hy hend)
  cases hfraction.denominator.symm.trans (denominator_of_dark hx (le_trans hxy hy))
  cases hfraction'.denominator.symm.trans (denominator_of_dark hy0 hy)
  refine hfraction.ratio_le hfraction' (div_le_div_of_nonneg_right ?_ hfraction.pos.le)
  exact rational_le_of_le hfraction.numerator hfraction'.numerator (numerator_le hx hxy)

/-! ## Limiting to the unit interval -/

theorem clamp_not_number {low high : Float32} (hx : ¬ x ≤ x) : clamp x low high = x := by
  unfold clamp
  rw [if_neg fun h => hx (le_self_of_lt h).1, if_neg fun h => hx (le_self_of_lt h).2]

theorem clamp_unit (hx : 0.0 ≤ x) : clamp x 0.0 1.0 = if 1.0 < x then 1.0 else x := by
  unfold clamp
  rw [if_neg (not_lt_of_le hx)]

theorem clamp_le (hx : 0.0 ≤ x) : clamp x 0.0 1.0 ≤ x ∧ clamp x 0.0 1.0 ≤ 1.0 := by
  have hself := self_le_of_le_right hx
  rw [clamp_unit hx]
  split
  · next h => exact ⟨le_of_lt h, by decide⟩
  · next h => exact ⟨hself, le_of_not_lt hself (by decide) h⟩

theorem le_clamp {z : Float32} (hx : 0.0 ≤ x) (hz : z ≤ x) (hone : z ≤ 1.0) :
    z ≤ clamp x 0.0 1.0 := by
  rw [clamp_unit hx]
  split
  · exact hone
  · exact hz

/-! ## The curve itself -/

variable {u w : Float32}

theorem greater_zero (hu : u < limit) :
    0.0 ≤ greater u 0.0 ∧ greater u 0.0 < limit :=
  ⟨le_greater_right (by decide), greater_of_both (P := (· < limit)) hu (by decide +kernel)⟩

theorem greater_zero_le (h : u ≤ w) : greater u 0.0 ≤ greater w 0.0 :=
  greater_of_both (P := (· ≤ greater w 0.0))
    (le_trans h (le_greater_left (self_le_of_le_right h))) (le_greater_right (by decide))

theorem greater_zero_of_pos (hpos : 0 < value (greater u 0.0)) : greater u 0.0 = u := by
  rcases greater_eq_or u 0.0 with h | h
  · exact h
  · rw [h, value_zero] at hpos
    exact absurd hpos (lt_irrefl 0)

theorem filmic_unit (hu : u < limit) : 0.0 ≤ filmic u ∧ filmic u ≤ 1.0 := by
  obtain ⟨hnonneg, hlimit⟩ := greater_zero hu
  have hratio := ratio_nonneg hnonneg hlimit
  exact ⟨le_clamp hratio hratio (by decide), (clamp_le hratio).2⟩

theorem filmic_not_number (hu : limit ≤ u) : ¬ filmic u ≤ filmic u := by
  have hle : u ≤ greater u 0.0 := le_greater_left (self_le_of_le_right hu)
  have hratio := ratio_not_number (le_trans hu hle)
  rw [filmic_eq, clamp_not_number hratio]
  exact hratio

theorem filmic_of_le_zero (hu : u ≤ 0.0) : value? (filmic u) = some 0 := by
  have hzero : (0.0 : Float32) ≤ 0.0 := by decide
  have hlow : 0.0 ≤ greater u 0.0 := le_greater_right hzero
  have hhigh : greater u 0.0 ≤ 0.0 := greater_of_both (P := (· ≤ 0.0)) hu hzero
  have hratio : ratio (greater u 0.0) ≤ 0.0 :=
    le_trans (ratio_le_of_dark hlow hhigh (by decide +kernel)) (by decide +kernel)
  have hnonneg := ratio_nonneg hlow (lt_of_le_of_lt hhigh (by decide +kernel))
  have hrank := rank_of_zero (le_clamp hnonneg hnonneg (by decide))
    (le_trans (clamp_le hnonneg).1 hratio)
  exact value?_of_rank_eq (hrank.trans rank?_zero.symm) value?_zero

end TileTracer.Filmic
