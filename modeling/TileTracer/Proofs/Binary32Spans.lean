import TileTracer.Proofs.Binary32Error

/-!
The difference of two values apart is never rounded to zero. It may be too large for the format, and
then its reciprocal is zero; or it may be so small that its reciprocal is too large; and otherwise
the two are finite, and their product is nearly 1.
-/

namespace TileTracer.Binary32

open Float.Model (Format UnpackedFloat)
open Float.Model.UnpackedFloat

/-! ## The finest grid -/

theorem exists_grid {f : UnpackedFloat} (hf : Proper f) {x : ℚ} (hx : rational? f = some x) :
    ∃ n : ℤ, x = n * 2 ^ (-149 : ℤ) := by
  cases f with
  | notANumber => cases hx
  | infinity s => cases hx
  | zero s =>
      cases hx
      exact ⟨0, by simp⟩
  | finite s m e hm =>
      cases hx
      exact ⟨_, (shifted_eq s m hf.1.least_le).symm⟩

theorem Lands.le_iff {n k : ℤ} {m : ℕ} (h : Lands (n * 2 ^ (-149 : ℤ)) k) (hm : m + 1 < 2 ^ 24) :
    k ≤ m ↔ n ≤ m := by
  have hpos : (0 : ℚ) < 2 ^ (-149 : ℤ) := by positivity
  have hlands (l : ℕ) (hl : l < 2 ^ 24) : Lands (l * 2 ^ (-149 : ℤ)) l := by
    have hcanonical : Canonical l (-149) := ⟨hl, le_rfl, .inr rfl⟩
    have hsteps : steps l (-149) = l := by simp [steps]
    exact hsteps ▸ hcanonical.lands (by decide)
  constructor
  · intro hk
    by_contra hn
    have hle : ((m + 1 : ℕ) : ℚ) ≤ n := by exact_mod_cast not_le.mp hn
    have := (hlands (m + 1) hm).mono h (mul_le_mul_of_nonneg_right hle hpos.le)
    push_cast at this
    omega
  · intro hn
    have hle : (n : ℚ) ≤ m := by exact_mod_cast hn
    exact h.mono (hlands m (by omega)) (mul_le_mul_of_nonneg_right hle hpos.le)

variable {x y z c : Float32} {a b q : ℚ}

theorem rank_sub (hx : value? x = some a) (hy : value? y = some b) :
    ∃ k, rank? (y - x) = some k ∧ Lands (b - a) k ∧
      ∀ m : ℕ, m + 1 < 2 ^ 24 → (k ≤ m ↔ b - a ≤ m * 2 ^ (-149 : ℤ)) := by
  have hpos : (0 : ℚ) < 2 ^ (-149 : ℤ) := by positivity
  obtain ⟨k, hk, hlands⟩ := sub_lands (proper_unpack y) (proper_unpack x) hy hx
  refine ⟨k, hk, hlands, fun m hm => ?_⟩
  obtain ⟨i, rfl⟩ := exists_grid (proper_unpack x) hx
  obtain ⟨j, rfl⟩ := exists_grid (proper_unpack y) hy
  rw [← sub_mul, ← Int.cast_sub] at hlands ⊢
  rw [hlands.le_iff hm, mul_le_mul_iff_left₀ hpos]
  exact_mod_cast Iff.rfl

theorem rank_eq_of_le (hxy : x ≤ y) (hyx : y ≤ x) : rank? x = rank? y := by
  obtain ⟨k, l, hk, hl, hkl⟩ := le_iff.mp hxy
  obtain ⟨l', k', hl', hk', hlk⟩ := le_iff.mp hyx
  cases hk.symm.trans hk'
  cases hl.symm.trans hl'
  rw [hk, hl, le_antisymm hkl hlk]

theorem rank_of_zero (hx : 0.0 ≤ x) (hx' : x ≤ 0.0) : rank? x = some 0 :=
  (rank_eq_of_le hx' hx).trans rank?_zero

theorem rank_of_infinity_le (h : Scalar.infinity ≤ x) : rank? x = some infinitySteps := by
  obtain ⟨l, k, hl, hk, hlk⟩ := le_iff.mp h
  cases rank?_infinity.symm.trans hl
  rw [hk, le_antisymm (rank_between hk).2 hlk]

theorem value?_of_rank_eq (h : rank? x = rank? y) (hy : value? y = some b) : value? x = some b :=
  rational_of_place_eq (proper_unpack x) (proper_unpack y) h hy

theorem lt_of_rank {k l : ℤ} (hx : rank? x = some k) (hy : rank? y = some l) (h : k < l) : x < y :=
  lt_iff.mpr ⟨k, l, hx, hy, h⟩

theorem sub_number (hx : Scalar.isFinite x = true) (hy : Scalar.isFinite y = true) :
    y - x ≤ y - x := by
  obtain ⟨k, hk, -⟩ := rank_sub (value?_eq_some_value hx) (value?_eq_some_value hy)
  exact le_self_iff.mpr ⟨k, hk⟩

theorem zero_le_sub (hx : Scalar.isFinite x = true) (hy : Scalar.isFinite y = true) (h : x ≤ y) :
    0.0 ≤ y - x := by
  obtain ⟨k, hk, hlands, -⟩ := rank_sub (value?_eq_some_value hx) (value?_eq_some_value hy)
  exact le_iff.mpr
    ⟨0, k, rank?_zero, hk, lands_zero.mono hlands (sub_nonneg.mpr (value_le_of_le hx hy h))⟩

theorem rank_sub_of_le (hx : Scalar.isFinite x = true) (hxy : x ≤ y) (hyx : y ≤ x) :
    rank? (y - x) = some 0 := by
  have hx := value?_eq_some_value hx
  obtain ⟨k, hk, hlands, -⟩ := rank_sub hx (value?_of_rank_eq (rank_eq_of_le hyx hxy) hx)
  rw [sub_self] at hlands
  rw [hk, hlands.eq_zero]

theorem sub_mono_left (hz : Scalar.isFinite z = true) (hx : Scalar.isFinite x = true)
    (hy : Scalar.isFinite y = true) (h : x ≤ y) : x - z ≤ y - z :=
  (MonotoneScalar.sub_under (.of_le h) (.refl z)).le (sub_number hz hx) (sub_number hz hy)

/-! ## Reciprocals and zero -/

theorem unpack_of_rank_zero (hc : rank? c = some 0) : ∃ s, c.toModel.unpack = .zero s := by
  have hproper := proper_unpack c
  unfold rank? at hc
  cases hfloat : c.toModel.unpack with
  | notANumber => rw [hfloat] at hc; cases hc
  | infinity s => rw [hfloat] at hc; cases s <;> cases hc
  | zero s => exact ⟨s, rfl⟩
  | finite s m e hm =>
      rw [hfloat] at hc hproper
      have hpos := hproper.1.steps_pos hm
      have hzero := Option.some.inj hc
      cases s <;> simp only [Sign.apply] at hzero <;> omega

theorem reciprocal_lands (hc : value? c = some q) (hq : 0 < q) :
    ∃ k, rank? (1.0 / c) = some k ∧ Lands (1 / q) k :=
  quotient_lands (by decide +kernel) hc hq

theorem unpack_of_rank_infinity (hc : rank? c = some infinitySteps) :
    c.toModel.unpack = .infinity .positive := by
  rcases (unpack_of_sign hc).1 infinitySteps_pos with hfloat | ⟨n, e, hn, hfloat⟩
  · exact hfloat
  · have hproper := proper_unpack c
    unfold rank? at hc
    rw [hfloat] at hc hproper
    have htop := hproper.1.steps_lt_infinity hproper.2
    exact absurd (Option.some.inj hc) htop.ne

theorem rank_reciprocal_infinity (hc : rank? c = some infinitySteps) :
    rank? (1.0 / c) = some 0 := by
  change place? (repack (div .binary32 (1.0 : Float32).toModel.unpack c.toModel.unpack)) = some 0
  rw [unpack_of_rank_infinity hc]
  decide

theorem rank_infinity_div_infinity (hx : rank? x = some infinitySteps)
    (hy : rank? y = some infinitySteps) : rank? (x / y) = none := by
  change place? (repack (div .binary32 x.toModel.unpack y.toModel.unpack)) = none
  rw [unpack_of_rank_infinity hx, unpack_of_rank_infinity hy]
  decide

theorem rank_infinity_div (hx : rank? x = some infinitySteps) (hy : value? y = some b)
    (hb : 0 < b) : rank? (x / y) = some infinitySteps := by
  change place? (repack (div .binary32 x.toModel.unpack y.toModel.unpack)) = _
  rw [unpack_of_rank_infinity hx]
  unfold value? at hy
  cases hfloat : y.toModel.unpack with
  | notANumber => rw [hfloat] at hy; cases hy
  | infinity s => rw [hfloat] at hy; cases hy
  | zero s =>
      rw [hfloat] at hy
      cases hy
      exact absurd hb (lt_irrefl 0)
  | finite s n e hn =>
      rw [hfloat] at hy
      cases hy
      cases s with
      | negative => exact absurd hb (not_lt.mpr (neg_nonpos.mpr (by positivity)))
      | positive => exact place?_repack_infinity .positive

theorem div_le_div_of_values {p : ℚ} (hx : value? x = some a) (hy : value? y = some b)
    (hz : value? z = some p) (hc : value? c = some q) (hb : 0 < b) (hq : 0 < q)
    (h : a / b ≤ p / q) : x / y ≤ z / c := by
  obtain ⟨k, hk, hlands⟩ := quotient_lands hx hy hb
  obtain ⟨l, hl, hlands'⟩ := quotient_lands hz hc hq
  exact le_iff.mpr ⟨k, l, hk, hl, hlands.mono hlands' h⟩

theorem pos_of_rank {k : ℤ} (hk : rank? c = some k) (hc : value? c = some q) (h : 0 < k) : 0 < q :=
  (lt_iff_of_values value?_zero hc).mp (lt_of_rank rank?_zero hk h)

theorem lands_overflow : Lands (2 ^ 128) infinitySteps := by
  have hcanonical : Canonical (2 ^ 23) 105 := ⟨by decide, by decide, .inl le_rfl⟩
  have hsteps : steps (2 ^ 23) 105 = infinitySteps := by decide
  refine .inl ⟨by positivity, _, ?_, (min_eq_right hsteps.ge).symm⟩
  convert hcanonical.roundsTo using 1
  norm_num

theorem value_lt_overflow {k : ℤ} (hc : value? c = some q) (hk : rank? c = some k) :
    q < 2 ^ 128 := by
  obtain ⟨hlands, -, hfinite⟩ := lands_rational (proper_unpack c) hc hk
  by_contra h
  have := lands_overflow.mono hlands (not_lt.mp h)
  omega

theorem rank_reciprocal_overflow (hc : value? c = some q) (hpos : 0 < q) (hq : q ≤ 1 / 2 ^ 128) :
    rank? (1.0 / c) = some infinitySteps := by
  obtain ⟨k, hk, hlands⟩ := reciprocal_lands hc hpos
  have hlarge : 2 ^ 128 ≤ 1 / q := (le_one_div (by positivity) hpos).mpr hq
  have := lands_overflow.mono hlands hlarge
  have := (rank_between hk).2
  rw [hk, show k = infinitySteps by omega]

theorem reciprocal_finite (hc : value? c = some q) (hlow : (2 ^ 21 + 1) * 2 ^ (-149 : ℤ) ≤ q)
    (hhigh : q < 2 ^ 128) :
    ∃ r, value? (1.0 / c) = some r ∧ 0 < r ∧ |q * r - 1| ≤ 5 / 2 ^ 24 := by
  have hpos : 0 < q := lt_of_lt_of_le (by positivity) hlow
  obtain ⟨k, hk, hlands⟩ := reciprocal_lands hc hpos
  have hgreatest : Canonical (2 ^ 24 - 1) 104 := ⟨by decide, by decide, .inl (by decide)⟩
  have hleast : Canonical 1 (-149) := ⟨by decide, le_rfl, .inr rfl⟩
  have htop : k ≤ steps (2 ^ 24 - 1) 104 := by
    refine hlands.mono (hgreatest.lands le_rfl) ((one_div_le hpos (by positivity)).mpr ?_)
    refine le_trans ?_ hlow
    norm_num
  have hbottom : steps 1 (-149) ≤ k := by
    refine (hleast.lands (by decide)).mono hlands ((le_one_div (by positivity) hpos).mpr ?_)
    refine hhigh.le.trans ?_
    norm_num
  have htop' : steps (2 ^ 24 - 1) 104 < infinitySteps := by decide
  have hbottom' : 0 < steps 1 (-149) := by decide
  obtain ⟨r, hr⟩ := isFinite_iff.mp (isFinite_of_rank hk (by omega) (by omega))
  refine ⟨r, hr, pos_of_rank hk hr (by omega), ?_⟩
  have herror := (hlands.roundedFrom (proper_unpack _) hr hk).error
  rw [abs_of_pos (by positivity : 0 < 1 / q)] at herror
  calc |q * r - 1| = q * |r - 1 / q| := by
        rw [← abs_of_pos hpos, ← abs_mul, abs_of_pos hpos, mul_sub, mul_one_div_cancel hpos.ne']
    _ ≤ q * (roundoff * (1 / q) + halfStep) := mul_le_mul_of_nonneg_left herror hpos.le
    _ = roundoff + q * halfStep := by field_simp
    _ ≤ 5 / 2 ^ 24 := by
        unfold roundoff halfStep
        norm_num at hhigh ⊢
        linarith

/-- A product with zero is zero, unless the other factor is infinite or not a number. -/
theorem rank_mul_zero (hc : rank? c = some 0) :
    rank? (x * c) = if Scalar.isFinite x then some 0 else none := by
  obtain ⟨s, hfloat⟩ := unpack_of_rank_zero hc
  by_cases hx : Scalar.isFinite x = true
  · rw [if_pos hx]
    obtain ⟨k, hk, hlands⟩ := product_lands (proper_unpack x) (proper_unpack c)
      (value?_eq_some_value hx) (congrArg rational? hfloat)
    rw [mul_zero] at hlands
    exact hk.trans (congrArg some hlands.eq_zero)
  · rw [if_neg hx]
    change place? (repack (mul .binary32 x.toModel.unpack c.toModel.unpack)) = none
    rw [hfloat]
    rcases infinite_or_rational x.toModel.unpack with h | ⟨t, h⟩ | h
    · rw [h]
      exact place?_repack_notANumber
    · rw [h]
      exact place?_repack_notANumber
    · exact absurd (isFinite_iff.mpr h) hx

theorem mul_comm_unpacked (f g : UnpackedFloat) : mul .binary32 f g = mul .binary32 g f := by
  have hsign (s t : Sign) : s * t = t * s := by cases s <;> cases t <;> rfl
  cases f <;> cases g
  case finite.finite s m e hm t n e' hn =>
      change roundWithAccuracy .binary32 (s * t) (m * n) (e + e') .exact =
        roundWithAccuracy .binary32 (t * s) (n * m) (e' + e) .exact
      rw [hsign, Nat.mul_comm, Int.add_comm]
  all_goals first | rfl | exact congrArg _ (hsign _ _)

theorem mul_swap (x y : Float32) : x * y = y * x :=
  congrArg (fun f => Float32.ofModel (Float32.Model.pack f)) (mul_comm_unpacked _ _)

theorem rank_zero_mul (hc : rank? c = some 0) :
    rank? (c * x) = if Scalar.isFinite x then some 0 else none := by
  rw [mul_swap]
  exact rank_mul_zero hc

/-- What the rounded difference of two values apart and its reciprocal come to. -/
inductive Span (c : Float32) (q : ℚ) : Prop
  /-- The difference is too large, and its reciprocal is zero. -/
  | wide (hc : rank? c = some infinitySteps) (hr : rank? (1.0 / c) = some 0) (hq : 1 / 2 ^ 128 < q)
  /-- The reciprocal is too large. -/
  | narrow {p : ℚ} (hc : value? c = some p) (hp : 0 < p)
      (hr : rank? (1.0 / c) = some infinitySteps) (hq : q ≤ 1 / 2 ^ 128)
  | regular {p r : ℚ} (hc : value? c = some p) (hp : 0 < p) (hr : value? (1.0 / c) = some r)
      (hpos : 0 < r) (herror : |p * r - 1| ≤ 5 / 2 ^ 24) (hq : 1 / 2 ^ 128 < q)

namespace Span

open Scalar OrderedScalar

theorem scaled_lt (h : Span c q) (hx : 0.0 ≤ x) (hxy : x ≤ y) {t : Float32}
    (hlt : y * (1.0 / c) < t) : x * (1.0 / c) < t := by
  have hscaled (hpos : 0.0 < 1.0 / c) : x * (1.0 / c) < t :=
    (MonotoneScalar.mul_under_of_pos hpos (.of_le hxy)).above hlt
  cases h with
  | wide hc hr hq =>
      obtain ⟨k, l, hk, hl, hkl⟩ := lt_iff.mp hlt
      rw [rank_mul_zero hr] at hk
      split at hk
      · next hy =>
        have hfinite : isFinite x = true := isFinite_eq_true.mpr
          ⟨lt_of_lt_of_le (by decide) hx, lt_of_le_of_lt hxy (isFinite_eq_true.mp hy).2⟩
        refine lt_of_rank ?_ hl hkl
        rw [rank_mul_zero hr, if_pos hfinite, hk]
      · cases hk
  | narrow hc hp hr hq => exact hscaled (lt_of_rank rank?_zero hr infinitySteps_pos)
  | regular hc hp hr hpos herror hq => exact hscaled ((lt_iff_of_values value?_zero hr).mpr hpos)

theorem not_scaled_lt_zero (h : Span c q) (hx : 0.0 ≤ x) : ¬ x * (1.0 / c) < 0.0 := by
  intro hlt
  obtain ⟨k, l, hk, hl, hkl⟩ := lt_iff.mp (h.scaled_lt (self_le_of_le_left hx) hx hlt)
  rw [rank_zero_mul rank?_zero] at hk
  cases rank?_zero.symm.trans hl
  split at hk
  · cases hk
    exact absurd hkl (lt_irrefl 0)
  · cases hk

/-- The product of zero with the reciprocal is not a number if the span is narrow. -/
theorem rank_zero_scaled (h : Span c q) (hx : rank? x = some 0) :
    rank? (x * (1.0 / c)) = if 1 / 2 ^ 128 < q then some 0 else none := by
  have hfinite : Scalar.isFinite (1.0 / c) = true ↔ 1 / 2 ^ 128 < q := by
    cases h with
    | wide hc hr hq =>
        exact iff_of_true (isFinite_of_rank hr (by decide) (by decide)) hq
    | narrow hc hp hr hq =>
        refine iff_of_false (fun hfinite => ?_) (not_lt.mpr hq)
        obtain ⟨k, l, hk, hl, hkl⟩ := lt_iff.mp (isFinite_eq_true.mp hfinite).2
        cases hr.symm.trans hk
        cases rank?_infinity.symm.trans hl
        exact absurd hkl (lt_irrefl _)
    | regular hc hp hr hpos herror hq => exact iff_of_true (isFinite_iff.mpr ⟨_, hr⟩) hq
  rw [rank_zero_mul hx]
  exact if_congr hfinite rfl rfl

/-- The product of the whole span with the reciprocal is not far below 1, should it be below 1. -/
theorem value_scaled (h : Span c q) (hxc : x ≤ c) (hcx : c ≤ x) (hlt : x * (1.0 / c) < 1.0) :
    ∃ s, value? (x * (1.0 / c)) = some s ∧ 1 - 1 / 2 ^ 21 ≤ s := by
  have hrank := rank_eq_of_le hxc hcx
  obtain ⟨k, l, hk, hl, hkl⟩ := lt_iff.mp hlt
  cases h with
  | wide hc hr hq =>
      -- The product of infinity with a zero is not a number, and so not below 1.
      have hx : ¬ Scalar.isFinite x = true := fun hx =>
        not_lt_of_le (le_iff.mpr ⟨_, _, rank?_infinity, hrank.trans hc, le_rfl⟩)
          (isFinite_eq_true.mp hx).2
      rw [rank_mul_zero hr, if_neg hx] at hk
      cases hk
  | narrow hc hp hr hq =>
      have hx := value?_of_rank_eq hrank hc
      obtain ⟨z, j, hz, hj, hpos⟩ := lt_iff.mp ((lt_iff_of_values value?_zero hx).mpr hp)
      cases rank?_zero.symm.trans hz
      -- A positive number times infinity is infinite, and so not below 1.
      have hinfinity := mul_infinity_place .positive (proper_unpack x)
      rw [← unpack_of_rank_infinity hr] at hinfinity
      change (rank? (x * (1.0 / c))).map _ = side (rank? x) at hinfinity
      rw [hk, hj, side, Option.bind_some, if_pos hpos] at hinfinity
      have htop : k = infinitySteps := Option.some.inj hinfinity
      have := (rank_between hl).2
      omega
  | @regular p r hc hp hr hpos herror hq =>
      obtain ⟨j, hj, hlands⟩ := product_lands (proper_unpack x) (proper_unpack (1.0 / c))
        (value?_of_rank_eq hrank hc) hr
      have hj : rank? (x * (1.0 / c)) = some j := hj
      obtain ⟨hlow, hhigh⟩ := abs_le.mp herror
      have hsize : |p * r| ≤ 2 ^ 1 := abs_le.mpr ⟨by linarith, by linarith⟩
      obtain ⟨hbottom, htop⟩ := hlands.finite hsize (by decide)
      obtain ⟨s, hs⟩ := isFinite_iff.mp (isFinite_of_rank hj hbottom htop)
      have hround := (hlands.roundedFrom (proper_unpack _) hs hj).error
      refine ⟨s, hs, ?_⟩
      rw [abs_of_pos (mul_pos hp hpos)] at hround
      have := (abs_le.mp hround).1
      unfold roundoff halfStep at this
      norm_num at this hlow hhigh ⊢
      linarith

end Span

theorem span_of_lt (hx : value? x = some a) (hy : value? y = some b) (hab : a < b) :
    Span (y - x) (b - a) := by
  obtain ⟨k, hk, -, hle⟩ := rank_sub hx hy
  have hthreshold : ((2 ^ 21 : ℕ) : ℚ) * 2 ^ (-149 : ℤ) = 1 / 2 ^ 128 := by norm_num
  have hsmall := hle (2 ^ 21) (by decide)
  rw [hthreshold] at hsmall
  have hpos : 0 < k := by
    by_contra hk
    have := (hle 0 (by decide)).mp (not_lt.mp hk)
    rw [Nat.cast_zero, zero_mul] at this
    linarith
  by_cases htop : k = infinitySteps
  · subst htop
    exact .wide hk (rank_reciprocal_infinity hk) (not_le.mp (mt hsmall.mpr (by decide)))
  · have hbetween := rank_between hk
    obtain ⟨p, hp⟩ := isFinite_iff.mp (isFinite_of_rank hk (by omega) (by omega))
    have hp0 := pos_of_rank hk hp hpos
    obtain ⟨n, hn⟩ := exists_grid (proper_unpack (y - x)) hp
    have hlands := (lands_rational (proper_unpack (y - x)) hp hk).1
    rw [hn] at hlands
    have hgrid := hlands.le_iff (m := 2 ^ 21) (by decide)
    by_cases hnarrow : k ≤ (2 ^ 21 : ℕ)
    · refine .narrow hp hp0 (rank_reciprocal_overflow hp hp0 ?_) (hsmall.mp hnarrow)
      rw [← hthreshold, hn]
      exact mul_le_mul_of_nonneg_right (by exact_mod_cast hgrid.mp hnarrow) (by positivity)
    · obtain ⟨r, hr, hr0, herror⟩ := reciprocal_finite hp (by
        rw [hn]
        refine mul_le_mul_of_nonneg_right ?_ (by positivity)
        exact_mod_cast not_le.mp (mt hgrid.mpr hnarrow)) (value_lt_overflow hp hk)
      exact .regular hp hp0 hr hr0 herror (not_le.mp (mt hsmall.mpr hnarrow))

end TileTracer.Binary32
