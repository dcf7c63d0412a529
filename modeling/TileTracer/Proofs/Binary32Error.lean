import TileTracer.Numeric.Binary32
import TileTracer.Proofs.Binary32Monotone

/-!
A finite value is a rational. An operation that comes to a finite value has finite operands, and
its result is off from the exact one by a share of its size or by half of the finest step. Errors
of a longer evaluation are measured against the sum of the magnitudes of its terms.
-/

namespace TileTracer.Binary32

open Float.Model (Format UnpackedFloat)
open Float.Model.UnpackedFloat

/-- The rational that a value is; infinities and what is not a number are none. -/
def value? (x : Float32) : Option ℚ := rational? x.toModel.unpack

/-! ## One rounding -/

/-- The share of its size by which rounding moves a rational. -/
def roundoff : ℚ := 1 / 2 ^ 24

/-- Half of the finest step: by as much rounding moves a rational of any size. -/
def halfStep : ℚ := 1 / 2 ^ 150

structure RoundedFrom (x y : ℚ) : Prop where
  error : |y - x| ≤ roundoff * |x| + halfStep
  zero : x = 0 → y = 0

theorem RoundedFrom.neg {x y : ℚ} (h : RoundedFrom x y) : RoundedFrom (-x) (-y) where
  error := by
    rw [← neg_sub', abs_neg, abs_neg]
    exact h.error
  zero hx := neg_eq_zero.mpr (h.zero (neg_eq_zero.mp hx))

/-- A place tells the value, also where rounding carried into one bit more. -/
theorem Canonical.value_eq {m : ℕ} {n e f : ℤ} (hm : Canonical m f) (hn : 0 ≤ n) (hle : n ≤ 2 ^ 24)
    (he : -149 ≤ e) (hlow : 2 ^ 23 ≤ n ∨ e = -149) (h : steps m f = (e + 149) * 2 ^ 23 + n) :
    (m : ℚ) * 2 ^ f = n * 2 ^ e := by
  lift n to ℕ using hn
  rcases hle.lt_or_eq with hlt | heq
  · have hcanonical : Canonical n e := ⟨by omega, he, by omega⟩
    obtain ⟨rfl, rfl⟩ := hm.eq_of_steps_eq hcanonical h
    rfl
  · have hcanonical : Canonical (2 ^ 23) (e + 1) := ⟨by decide, by omega, .inl le_rfl⟩
    obtain ⟨rfl, rfl⟩ := hm.eq_of_steps_eq hcanonical (by rw [h, heq, steps]; push_cast; ring)
    rw [heq, zpow_add_one₀ two_ne_zero]
    push_cast
    ring

theorem RoundsTo.error_le {x : ℚ} {m : ℕ} {f : ℤ} (h : RoundsTo x (steps m f)) (hx : 0 ≤ x)
    (hm : Canonical m f) : |m * 2 ^ f - x| ≤ roundoff * x + halfStep := by
  obtain ⟨e, n, he, hlow, hhigh, hn, hsteps⟩ := h
  have hpos : (0 : ℚ) < 2 ^ e := zpow_pos two_pos e
  have hnonneg : 0 ≤ n := hn.ge_of_ge (by exact_mod_cast div_nonneg hx hpos.le)
  have hupper : n ≤ 2 ^ 24 := hn.le_of_le (by exact_mod_cast (div_two_zpow_lt 24 hhigh).le)
  have hleading : 2 ^ 23 ≤ n ∨ e = -149 := hlow.imp_left fun hlow =>
    hn.ge_of_ge (by exact_mod_cast le_div_two_zpow 23 hlow)
  have hsmall : |m * 2 ^ f - x| ≤ 2 ^ e / 2 := by
    have hgrid : (m : ℚ) * 2 ^ f - x = -(x / 2 ^ e - n) * 2 ^ e := by
      rw [hm.value_eq hnonneg hupper he hleading hsteps]
      field_simp
      ring
    rw [hgrid, abs_mul, abs_neg, abs_of_pos hpos]
    linarith [mul_le_mul_of_nonneg_right hn.abs_sub_le hpos.le]
  unfold roundoff halfStep
  -- Half a step is a share of the size where there is a leading bit, and the finest one elsewhere.
  rcases hlow with hlow | rfl
  · rw [zpow_add₀ two_ne_zero] at hlow
    norm_num at hlow ⊢
    linarith
  · norm_num at hsmall ⊢
    linarith

theorem RoundsTo.roundedFrom {x : ℚ} {m : ℕ} {f : ℤ} (h : RoundsTo x (steps m f)) (hx : 0 ≤ x)
    (hm : Canonical m f) : RoundedFrom x (m * 2 ^ f) where
  error := by
    rw [abs_of_nonneg hx]
    exact h.error_le hx hm
  zero hzero := by
    subst hzero
    have hsteps : (f + 149) * 2 ^ 23 + m = 0 := h.eq_zero
    have := hm.least_le
    have hm : m = 0 := by omega
    rw [hm, Nat.cast_zero, zero_mul]

theorem rational?_neg (f : UnpackedFloat) : rational? f.neg = (rational? f).map fun x => -x := by
  cases f with
  | notANumber => rfl
  | infinity s => rfl
  | zero s => exact congrArg some neg_zero.symm
  | finite s m e hm =>
      cases s with
      | negative => exact congrArg some (neg_neg _).symm
      | positive => rfl

theorem Lands.roundedFrom_of_nonneg {f : UnpackedFloat} (hf : Proper f) {x y : ℚ} {k : ℤ}
    (h : Lands x k) (hx : 0 ≤ x) (hy : rational? f = some y) (hk : place? f = some k) :
    RoundedFrom x y := by
  have hnonneg : 0 ≤ k := lands_zero.mono h hx
  obtain ⟨r, hr, rfl⟩ : ∃ r, RoundsTo x r ∧ k = min r infinitySteps := by
    rcases h with ⟨-, h⟩ | ⟨hx', r, hr, rfl⟩
    · exact h
    · obtain rfl : x = 0 := le_antisymm hx' hx
      rw [neg_zero] at hr
      refine ⟨r, hr, ?_⟩
      rw [hr.eq_zero]
      rfl
  have hfinite := (lands_rational hf hy hk).2.2
  have hplace : r = min r infinitySteps := by omega
  rw [← hplace] at hk hnonneg
  cases f with
  | notANumber => cases hy
  | infinity s => cases hy
  | zero s =>
      cases hy
      cases hk
      have hrounded := RoundsTo.roundedFrom (m := 0) (f := -149) hr hx ⟨by decide, le_rfl, .inr rfl⟩
      rwa [Nat.cast_zero, zero_mul] at hrounded
  | finite s m e hm =>
      have hpos := hf.1.steps_pos hm
      cases hy
      cases hk
      cases s with
      | negative =>
          simp only [Sign.apply] at hnonneg
          omega
      | positive => exact hr.roundedFrom hx hf.1

theorem Lands.roundedFrom {f : UnpackedFloat} (hf : Proper f) {x y : ℚ} {k : ℤ}
    (h : Lands x k) (hy : rational? f = some y) (hk : place? f = some k) : RoundedFrom x y := by
  rcases le_total 0 x with hx | hx
  · exact h.roundedFrom_of_nonneg hf hx hy hk
  · have hneg : RoundedFrom (-x) (-y) := h.neg.roundedFrom_of_nonneg (proper_neg hf)
      (neg_nonneg.mpr hx) (by rw [rational?_neg, hy]; rfl) (by rw [place?_neg, hk]; rfl)
    rw [← neg_neg x, ← neg_neg y]
    exact hneg.neg

/-! ## Finite results -/

theorem proper_repack (f : UnpackedFloat) : Proper (repack f) :=
  proper_unpack ⟨Float32.Model.pack f⟩

theorem rational_of_place_eq {f g : UnpackedFloat} (hf : Proper f) (hg : Proper g) {x : ℚ}
    (h : place? f = place? g) (hx : rational? g = some x) : rational? f = some x := by
  obtain ⟨k, hk, hlower, hupper⟩ := place_of_rational hg hx
  rcases infinite_or_rational f with rfl | ⟨s, rfl⟩ | ⟨y, hy⟩
  · cases h.trans hk
  · cases h.trans hk
    cases s <;> simp only [Sign.apply] at hlower hupper <;> omega
  · rw [hy, rational_eq_of_place_eq hf hg hy hx (h.trans hk) hk]

theorem rational?_repack {f : UnpackedFloat} (hf : Proper f) {x : ℚ} (hx : rational? f = some x) :
    rational? (repack f) = some x := by
  refine rational_of_place_eq (proper_repack f) hf ?_ hx
  cases f with
  | notANumber => cases hx
  | infinity s => cases hx
  | zero s => exact place?_repack_zero s
  | finite s m e hm => exact place?_repack_finite hm hf

theorem exists_rational_of_repack {f : UnpackedFloat} {z : ℚ} (hz : rational? (repack f) = some z) :
    ∃ x, rational? f = some x := by
  rcases infinite_or_rational f with rfl | ⟨s, rfl⟩ | h
  · cases hz
  · cases s <;> cases hz
  · exact h

theorem rationals_of_sub {f g : UnpackedFloat} {z : ℚ}
    (hz : rational? (sub .binary32 f g) = some z) :
    ∃ x y, rational? f = some x ∧ rational? g = some y := by
  cases f <;> cases g
  case infinity.infinity s t => cases s <;> cases t <;> cases hz
  all_goals first | exact ⟨_, _, rfl, rfl⟩ | cases hz

theorem rational_of_neg {f : UnpackedFloat} {z : ℚ} (hz : rational? f.neg = some z) :
    rational? f = some (-z) := by
  rw [rational?_neg] at hz
  obtain ⟨a, ha, rfl⟩ := Option.map_eq_some_iff.mp hz
  rw [ha, neg_neg]

theorem rationals_of_add {f g : UnpackedFloat} {z : ℚ}
    (hz : rational? (add .binary32 f g) = some z) :
    ∃ x y, rational? f = some x ∧ rational? g = some y := by
  rw [add_eq_sub_neg] at hz
  obtain ⟨x, y, hx, hy⟩ := rationals_of_sub hz
  exact ⟨x, -y, hx, rational_of_neg hy⟩

theorem sum_lands {f g : UnpackedFloat} (hf : Proper f) (hg : Proper g) {x y : ℚ}
    (hx : rational? f = some x) (hy : rational? g = some y) :
    ∃ k, place? (repack (add .binary32 f g)) = some k ∧ Lands (x + y) k := by
  have hneg : rational? g.neg = some (-y) :=
    (rational?_neg g).trans (congrArg (Option.map fun q => -q) hy)
  rw [add_eq_sub_neg, ← sub_neg_eq_add]
  exact sub_lands hf (proper_neg hg) hx hneg

theorem rationals_of_mul {f g : UnpackedFloat} {z : ℚ}
    (hz : rational? (mul .binary32 f g) = some z) :
    ∃ x y, rational? f = some x ∧ rational? g = some y := by
  cases f <;> cases g
  all_goals first | exact ⟨_, _, rfl, rfl⟩ | cases hz

theorem product_lands {f g : UnpackedFloat} (hf : Proper f) (hg : Proper g) {x y : ℚ}
    (hx : rational? f = some x) (hy : rational? g = some y) :
    ∃ k, place? (repack (mul .binary32 f g)) = some k ∧ Lands (x * y) k := by
  cases g with
  | notANumber => cases hy
  | infinity t => cases hy
  | zero t =>
      obtain ⟨s, hs⟩ : ∃ s, mul .binary32 f (.zero t) = .zero s := by
        cases f with
        | notANumber => cases hx
        | infinity s => cases hx
        | zero s => exact ⟨_, rfl⟩
        | finite s m e hm => exact ⟨_, rfl⟩
      cases hy
      refine ⟨0, by rw [hs, place?_repack_zero], ?_⟩
      rw [mul_zero]
      exact lands_zero
  | finite t n e hn =>
      obtain ⟨k, hk, hlands⟩ := mul_lands (t := t) hn hg.1 hf hx
      cases hy
      refine ⟨t.apply k, hk, ?_⟩
      cases t with
      | negative => exact (mul_neg x _).symm ▸ hlands.neg
      | positive => exact hlands

theorem div_zero_finite (s t : Sign) {n : ℕ} {e : ℤ} (hn : 0 < n) :
    div .binary32 (.zero s) (.finite t n e hn) = .zero (s / t) := rfl

theorem quotient_lands {f g : UnpackedFloat} {x y : ℚ} (hx : rational? f = some x)
    (hy : rational? g = some y) (hpos : 0 < y) :
    ∃ k, place? (repack (div .binary32 f g)) = some k ∧ Lands (x / y) k := by
  cases g with
  | notANumber => cases hy
  | infinity t => cases hy
  | zero t =>
      cases hy
      exact absurd hpos (lt_irrefl 0)
  | finite t n e hn =>
      cases hy
      have hsize : (0 : ℚ) ≤ n * 2 ^ e := by positivity
      cases t with
      | negative => exact absurd hpos (not_lt.mpr (neg_nonpos.mpr hsize))
      | positive =>
          cases f with
          | notANumber => cases hx
          | infinity s => cases hx
          | zero s =>
              cases hx
              refine ⟨0, ?_, ?_⟩
              · rw [div_zero_finite, place?_repack_zero]
              · rw [zero_div]
                exact lands_zero
          | finite s m e' hm =>
              cases hx
              obtain ⟨k, hk, hlands⟩ := lands_of_rounded (by positivity)
                (div_rounded (s := s) (t := .positive) (e := e') (f := e) hm hn)
              have hsign : s / .positive = s := by cases s <;> rfl
              refine ⟨k, hk, ?_⟩
              rwa [hsign, ← signed_div] at hlands

variable {x y : Float32} {c : ℚ}

theorem value?_neg (h : value? x = some c) : value? (-x) = some (-c) :=
  rational?_repack (proper_neg (proper_unpack x))
    ((rational?_neg _).trans (congrArg (Option.map fun q => -q) h))

theorem finite_sub (h : value? (x - y) = some c) :
    ∃ a b, value? x = some a ∧ value? y = some b ∧ RoundedFrom (a - b) c := by
  obtain ⟨_, hresult⟩ := exists_rational_of_repack h
  obtain ⟨a, b, ha, hb⟩ := rationals_of_sub hresult
  obtain ⟨k, hk, hlands⟩ := sub_lands (proper_unpack x) (proper_unpack y) ha hb
  exact ⟨a, b, ha, hb, hlands.roundedFrom (proper_unpack (x - y)) h hk⟩

theorem finite_add (h : value? (x + y) = some c) :
    ∃ a b, value? x = some a ∧ value? y = some b ∧ RoundedFrom (a + b) c := by
  obtain ⟨_, hresult⟩ := exists_rational_of_repack h
  obtain ⟨a, b, ha, hb⟩ := rationals_of_add hresult
  obtain ⟨k, hk, hlands⟩ := sum_lands (proper_unpack x) (proper_unpack y) ha hb
  exact ⟨a, b, ha, hb, hlands.roundedFrom (proper_unpack (x + y)) h hk⟩

theorem finite_mul (h : value? (x * y) = some c) :
    ∃ a b, value? x = some a ∧ value? y = some b ∧ RoundedFrom (a * b) c := by
  obtain ⟨_, hresult⟩ := exists_rational_of_repack h
  obtain ⟨a, b, ha, hb⟩ := rationals_of_mul hresult
  obtain ⟨k, hk, hlands⟩ := product_lands (proper_unpack x) (proper_unpack y) ha hb
  exact ⟨a, b, ha, hb, hlands.roundedFrom (proper_unpack (x * y)) h hk⟩

theorem finite_neg (h : value? (-x) = some c) : value? x = some (-c) := by
  obtain ⟨_, hresult⟩ := exists_rational_of_repack h
  have hx : value? x = some _ := rational_of_neg hresult
  rw [hx, Option.some.inj (h.symm.trans (value?_neg hx)), neg_neg]

/-! ## Comparisons of finite values -/

theorem proper_abs {f : UnpackedFloat} (hf : Proper f) : Proper f.abs := by
  cases f <;> exact hf

theorem rational?_abs (f : UnpackedFloat) : rational? f.abs = (rational? f).map fun x => |x| := by
  cases f with
  | notANumber => rfl
  | infinity s => rfl
  | zero s => exact congrArg some abs_zero.symm
  | finite s m e hm =>
      have hpos : (0 : ℚ) ≤ m * 2 ^ e := by positivity
      refine congrArg some ?_
      cases s with
      | negative => exact ((abs_neg _).trans (abs_of_nonneg hpos)).symm
      | positive => exact (abs_of_nonneg hpos).symm

theorem value?_abs (h : value? x = some c) : value? x.abs = some |c| :=
  rational?_repack (proper_abs (proper_unpack x))
    ((rational?_abs _).trans (congrArg (Option.map fun q => |q|) h))

theorem finite_of_abs_lt (h : x.abs < y) : ∃ a, value? x = some a := by
  obtain ⟨k, l, hk, hl, hlt⟩ := lt_iff.mp h
  have habs : rank? x.abs = place? (repack x.toModel.unpack.abs) := rfl
  rcases infinite_or_rational x.toModel.unpack with hx | ⟨s, hx⟩ | hx
  · rw [habs, hx] at hk
    cases hk
  · rw [habs, hx] at hk
    have htop : k = infinitySteps := eq_infinity_of_place hk
    have := (rank_between hl).2
    omega
  · exact hx

theorem lt_iff_of_values {a b : ℚ} (hx : value? x = some a) (hy : value? y = some b) :
    x < y ↔ a < b := by
  have hproper := proper_unpack x
  have hproper' := proper_unpack y
  obtain ⟨k, hk, -⟩ := place_of_rational hproper hx
  obtain ⟨l, hl, -⟩ := place_of_rational hproper' hy
  have hlands := (lands_rational hproper hx hk).1
  have hlands' := (lands_rational hproper' hy hl).1
  have hplaces : x < y ↔ k < l := by
    rw [lt_iff]
    constructor
    · rintro ⟨i, j, hi, hj, hij⟩
      cases hk.symm.trans hi
      cases hl.symm.trans hj
      exact hij
    · exact fun h => ⟨k, l, hk, hl, h⟩
  rw [hplaces]
  constructor
  · intro hlt
    by_contra h
    have := hlands'.mono hlands (not_lt.mp h)
    omega
  · intro hlt
    by_contra h
    exact absurd (rational_le_of_place_le hproper' hproper hy hx hl hk (not_lt.mp h))
      (not_le.mpr hlt)

theorem isFinite_of_rank {k : ℤ} (hk : rank? x = some k) (hlow : -infinitySteps < k)
    (hhigh : k < infinitySteps) : Scalar.isFinite x = true :=
  Scalar.isFinite_eq_true.mpr ⟨lt_iff.mpr ⟨_, k, rank?_neg_infinity, hk, hlow⟩,
    lt_iff.mpr ⟨k, _, hk, rank?_infinity, hhigh⟩⟩

theorem isFinite_iff : Scalar.isFinite x = true ↔ ∃ a, value? x = some a := by
  constructor
  · intro h
    obtain ⟨hlower, hupper⟩ := Scalar.isFinite_eq_true.mp h
    obtain ⟨i, k, hi, hk, hik⟩ := lt_iff.mp hlower
    obtain ⟨k', j, hk', hj, hkj⟩ := lt_iff.mp hupper
    cases hk.symm.trans hk'
    cases rank?_neg_infinity.symm.trans hi
    cases rank?_infinity.symm.trans hj
    rcases infinite_or_rational x.toModel.unpack with hx | ⟨s, hx⟩ | hx
    · cases (congrArg place? hx).symm.trans hk
    · cases (congrArg place? hx).symm.trans hk
      cases s <;> simp only [Sign.apply] at hik hkj <;> omega
    · exact hx
  · rintro ⟨a, ha⟩
    obtain ⟨k, hk, hlow, hhigh⟩ := place_of_rational (proper_unpack x) ha
    exact isFinite_of_rank hk hlow hhigh

def value (x : Float32) : ℚ := (value? x).getD 0

theorem value_eq {q : ℚ} (h : value? x = some q) : value x = q := by
  rw [value, h]
  rfl

theorem value?_eq_some_value (h : Scalar.isFinite x = true) : value? x = some (value x) := by
  obtain ⟨q, hq⟩ := isFinite_iff.mp h
  rw [value_eq hq, hq]

theorem rational_le_of_le {a b : ℚ} (hx : value? x = some a) (hy : value? y = some b)
    (h : x ≤ y) : a ≤ b :=
  not_lt.mp (mt (lt_iff_of_values hy hx).mpr (Scalar.not_lt_of_le h))

theorem value_le_of_le (hx : Scalar.isFinite x = true) (hy : Scalar.isFinite y = true)
    (h : x ≤ y) : value x ≤ value y :=
  rational_le_of_le (value?_eq_some_value hx) (value?_eq_some_value hy) h

theorem isFinite_of_nonneg (hx : 0.0 ≤ x) (h : x < Scalar.infinity) : Scalar.isFinite x = true :=
  Scalar.isFinite_eq_true.mpr ⟨Scalar.lt_of_lt_of_le (by decide) hx, h⟩

theorem value?_zero : value? (0.0 : Float32) = some 0 := by decide +kernel

theorem value_zero : value (0.0 : Float32) = 0 := value_eq value?_zero

theorem value?_one : value? (1.0 : Float32) = some 1 := by decide +kernel

theorem value_one : value (1.0 : Float32) = 1 := value_eq value?_one

theorem value?_epsilon : value? epsilon = some (1 / 2 ^ 23) := by decide +kernel

/-! ## Running errors -/

/-- The factor by which one more rounding stretches an error, that of tiny results included. -/
def stretch : ℚ := 1 + roundoff + 1 / 2 ^ 34

/-- The size of an entry; a tiny one counts as large enough for products of four entries to stay
clear of the finest step. -/
def magnitude (q : ℚ) : ℚ := if q = 0 then 0 else max |q| (1 / 2 ^ 29)

theorem magnitude_zero : magnitude 0 = 0 := if_pos rfl

theorem magnitude_one : magnitude 1 = 1 := by norm_num [magnitude]

theorem magnitude_of_le {q : ℚ} (h : 1 / 2 ^ 29 ≤ q) : magnitude q = q := by
  have hpos : 0 < q := lt_of_lt_of_le (by positivity) h
  rw [magnitude, if_neg hpos.ne', abs_of_pos hpos, max_eq_left h]

/-- A value that is the rational `q`, should it be finite, up to `k` roundings. The terms of `q` are
products of `d` entries, and `m` is the sum of the magnitudes of these terms. -/
structure Computes (x : Float32) (q m : ℚ) (k d : ℕ) : Prop where
  error {c : ℚ} : value? x = some c → |c - q| ≤ (stretch ^ k - 1) * m
  abs_le : |q| ≤ m
  large : m = 0 ∨ (1 / 2 ^ 29) ^ d ≤ m

theorem one_le_stretch : 1 ≤ stretch := by
  norm_num [stretch, roundoff]

theorem RoundedFrom.error_le {a q m : ℚ} {k d : ℕ} (h : RoundedFrom a c) (hd : d ≤ 4)
    (ha : |a - q| ≤ (stretch ^ k - 1) * m) (hq : |q| ≤ m) (hm : m = 0 ∨ (1 / 2 ^ 29) ^ d ≤ m) :
    |c - q| ≤ (stretch ^ (k + 1) - 1) * m := by
  have hm0 : 0 ≤ m := (abs_nonneg q).trans hq
  rcases hm with rfl | hm
  · have hq : q = 0 := abs_nonpos_iff.mp hq
    have ha : a = 0 := by
      rw [mul_zero, hq, sub_zero] at ha
      exact abs_nonpos_iff.mp ha
    rw [h.zero ha, hq, sub_zero, abs_zero, mul_zero]
  · have hpow : 1 ≤ stretch ^ k := one_le_pow₀ one_le_stretch
    have hsize : |a| ≤ stretch ^ k * m := by
      have := abs_add_le (a - q) q
      rw [sub_add_cancel] at this
      linarith
    -- Products of at most four entries leave the finest step far behind.
    have htiny : halfStep ≤ 1 / 2 ^ 34 * (stretch ^ k * m) := by
      have hdegree : ((1 : ℚ) / 2 ^ 29) ^ 4 ≤ (1 / 2 ^ 29) ^ d :=
        pow_le_pow_of_le_one (by norm_num) (by norm_num) hd
      have hgrown : m ≤ stretch ^ k * m := le_mul_of_one_le_left hm0 hpow
      unfold halfStep
      norm_num at hdegree hm ⊢
      linarith
    have hround : |c - a| ≤ (roundoff + 1 / 2 ^ 34) * (stretch ^ k * m) := by
      have := mul_le_mul_of_nonneg_left hsize (by norm_num [roundoff] : 0 ≤ roundoff)
      linarith [h.error]
    calc |c - q| ≤ |c - a| + |a - q| := abs_sub_le c a q
      _ ≤ (roundoff + 1 / 2 ^ 34) * (stretch ^ k * m) + (stretch ^ k - 1) * m :=
        add_le_add hround ha
      _ = (stretch ^ (k + 1) - 1) * m := by rw [pow_succ, stretch]; ring

namespace Computes

variable {q r m n : ℚ} {k l d d' : ℕ}

theorem mass_nonneg (h : Computes x q m k d) : 0 ≤ m := (abs_nonneg q).trans h.abs_le

theorem size_le (h : Computes x q m k d) (hc : value? x = some c) : |c| ≤ stretch ^ k * m := by
  have := abs_add_le (c - q) q
  rw [sub_add_cancel] at this
  linarith [h.error hc, h.abs_le]

theorem entry (hq : value? x = some q) : Computes x q (magnitude q) 0 1 where
  error hc := by
    rw [Option.some.inj (hc.symm.trans hq), sub_self, abs_zero, pow_zero, sub_self, zero_mul]
  abs_le := by
    unfold magnitude
    split
    · next h => rw [h, abs_zero]
    · exact le_max_left _ _
  large := by
    unfold magnitude
    split
    · exact .inl rfl
    · exact .inr (by rw [pow_one]; exact le_max_right _ _)

theorem later (h : Computes x q m k d) (hkl : k ≤ l) : Computes x q m l d where
  error hc := by
    have hpow : stretch ^ k ≤ stretch ^ l := pow_le_pow_right₀ one_le_stretch hkl
    exact (h.error hc).trans
      (mul_le_mul_of_nonneg_right (sub_le_sub_right hpow 1) h.mass_nonneg)
  abs_le := h.abs_le
  large := h.large

theorem higher (h : Computes x q m k d) (hd : d ≤ d') : Computes x q m k d' where
  error := h.error
  abs_le := h.abs_le
  large := h.large.imp_right
    (pow_le_pow_of_le_one (by norm_num) (by norm_num) hd).trans

protected theorem neg (h : Computes x q m k d) : Computes (-x) (-q) m k d where
  error {c} hc := by
    rw [← abs_neg, neg_sub', neg_neg]
    exact h.error (finite_neg hc)
  abs_le := (abs_neg q).symm ▸ h.abs_le
  large := h.large

theorem large_add (hx : Computes x q m k d) (hy : Computes y r n k d) :
    m + n = 0 ∨ (1 / 2 ^ 29) ^ d ≤ m + n := by
  have hm := hx.mass_nonneg
  have hn := hy.mass_nonneg
  rcases hx.large with rfl | hm'
  · rw [zero_add]
    exact hy.large
  · exact .inr (by linarith)

theorem error_add_le {a b e : ℚ} (ha : |a - q| ≤ e * m) (hb : |b - r| ≤ e * n) :
    |a + b - (q + r)| ≤ e * (m + n) := by
  rw [add_sub_add_comm, mul_add]
  exact (abs_add_le _ _).trans (add_le_add ha hb)

protected theorem add (hx : Computes x q m k d) (hy : Computes y r n k d) (hd : d ≤ 4) :
    Computes (x + y) (q + r) (m + n) (k + 1) d := by
  have hbound : |q + r| ≤ m + n := (abs_add_le q r).trans (add_le_add hx.abs_le hy.abs_le)
  refine ⟨fun {c} hc => ?_, hbound, hx.large_add hy⟩
  obtain ⟨a, b, ha, hb, hround⟩ := finite_add hc
  exact hround.error_le hd (error_add_le (hx.error ha) (hy.error hb)) hbound (hx.large_add hy)

protected theorem sub (hx : Computes x q m k d) (hy : Computes y r n k d) (hd : d ≤ 4) :
    Computes (x - y) (q - r) (m + n) (k + 1) d := by
  have hbound : |q - r| ≤ m + n := (abs_sub q r).trans (add_le_add hx.abs_le hy.abs_le)
  refine ⟨fun {c} hc => ?_, hbound, hx.large_add hy⟩
  obtain ⟨a, b, ha, hb, hround⟩ := finite_sub hc
  refine hround.error_le hd ?_ hbound (hx.large_add hy)
  have hneg : |-b - -r| ≤ (stretch ^ k - 1) * n := by
    rw [← neg_sub', abs_neg]
    exact hy.error hb
  rw [sub_eq_add_neg a, sub_eq_add_neg q]
  exact error_add_le (hx.error ha) hneg

protected theorem mul (hx : Computes x q m k d) (hy : Computes y r n l d') (hd : d + d' ≤ 4) :
    Computes (x * y) (q * r) (m * n) (k + l + 1) (d + d') := by
  have hm := hx.mass_nonneg
  have hn := hy.mass_nonneg
  have hbound : |q * r| ≤ m * n := by
    rw [abs_mul]
    exact mul_le_mul hx.abs_le hy.abs_le (abs_nonneg r) hm
  have hlarge : m * n = 0 ∨ (1 / 2 ^ 29) ^ (d + d') ≤ m * n := by
    rcases hx.large with rfl | hm'
    · exact .inl (zero_mul n)
    · rcases hy.large with rfl | hn'
      · exact .inl (mul_zero m)
      · rw [pow_add]
        exact .inr (mul_le_mul hm' hn' (by positivity) hm)
  refine ⟨fun {c} hc => ?_, hbound, hlarge⟩
  obtain ⟨a, b, ha, hb, hround⟩ := finite_mul hc
  refine hround.error_le hd ?_ hbound hlarge
  calc |a * b - q * r| = |a * (b - r) + (a - q) * r| := by rw [mul_sub, sub_mul]; ring_nf
    _ ≤ |a| * |b - r| + |a - q| * |r| := by
      rw [← abs_mul, ← abs_mul]
      exact abs_add_le _ _
    _ ≤ stretch ^ k * m * ((stretch ^ l - 1) * n) + (stretch ^ k - 1) * m * n := by
      have herror := hx.error ha
      exact add_le_add
        (mul_le_mul (hx.size_le ha) (hy.error hb) (abs_nonneg _)
          ((abs_nonneg a).trans (hx.size_le ha)))
        (mul_le_mul herror hy.abs_le (abs_nonneg r) ((abs_nonneg _).trans herror))
    _ = (stretch ^ (k + l) - 1) * (m * n) := by rw [pow_add]; ring

end Computes

/-! ## Results in range -/

/-- A finite value, at most this power of two away from zero. -/
def Within (x : Float32) (b : ℕ) : Prop := ∃ c, value? x = some c ∧ |c| ≤ 2 ^ b

theorem Lands.finite {z : ℚ} {k : ℤ} {b : ℕ} (h : Lands z k) (hz : |z| ≤ 2 ^ b) (hb : b ≤ 127) :
    -infinitySteps < k ∧ k < infinitySteps := by
  have hc : Canonical (2 ^ 23) 104 := ⟨by decide, by decide, .inl le_rfl⟩
  have hsteps : steps (2 ^ 23) 104 < infinitySteps := by decide
  have htop : Lands (2 ^ 127) (steps (2 ^ 23) 104) := by
    convert hc.lands le_rfl using 1
    norm_num
  have hpow : (2 : ℚ) ^ b ≤ 2 ^ 127 := pow_le_pow_right₀ one_le_two hb
  obtain ⟨hlow, hhigh⟩ := abs_le.mp hz
  have := h.mono htop (by linarith)
  have := htop.neg.mono h (by linarith)
  omega

/-- Rounding at most doubles a result, and does not overflow far from the end of the format. -/
theorem within_of_lands {z : ℚ} {k : ℤ} {b : ℕ} (hk : rank? x = some k) (h : Lands z k)
    (hz : |z| ≤ 2 ^ b) (hb : b ≤ 127) : Within x (b + 1) := by
  obtain ⟨hlow, hhigh⟩ := h.finite hz hb
  obtain ⟨c, hc⟩ := isFinite_iff.mp (isFinite_of_rank hk hlow hhigh)
  have herror := (h.roundedFrom (proper_unpack x) hc hk).error
  have hsize := abs_sub_abs_le_abs_sub c z
  have hpow : (1 : ℚ) ≤ 2 ^ b := one_le_pow₀ one_le_two
  refine ⟨c, hc, ?_⟩
  rw [pow_succ]
  norm_num [roundoff, halfStep] at herror ⊢
  linarith

namespace Within

variable {a b : ℕ}

theorem mono (h : Within x a) (hab : a ≤ b) : Within x b :=
  h.imp fun _ h => ⟨h.1, h.2.trans (pow_le_pow_right₀ one_le_two hab)⟩

theorem isFinite (h : Within x b) : Scalar.isFinite x = true :=
  isFinite_iff.mpr (h.imp fun _ h => h.1)

protected theorem neg (h : Within x b) : Within (-x) b := by
  obtain ⟨c, hc, hle⟩ := h
  exact ⟨-c, value?_neg hc, (abs_neg c).symm ▸ hle⟩

protected theorem mul (hx : Within x a) (hy : Within y b) (h : a + b ≤ 127) :
    Within (x * y) (a + b + 1) := by
  obtain ⟨c, hc, hcle⟩ := hx
  obtain ⟨d, hd, hdle⟩ := hy
  obtain ⟨k, hk, hlands⟩ := product_lands (proper_unpack x) (proper_unpack y) hc hd
  refine within_of_lands hk hlands ?_ h
  rw [abs_mul, pow_add]
  exact mul_le_mul hcle hdle (abs_nonneg d) (by positivity)

protected theorem add (hx : Within x b) (hy : Within y b) (h : b + 1 ≤ 127) :
    Within (x + y) (b + 2) := by
  obtain ⟨c, hc, hcle⟩ := hx
  obtain ⟨d, hd, hdle⟩ := hy
  obtain ⟨k, hk, hlands⟩ := sum_lands (proper_unpack x) (proper_unpack y) hc hd
  refine within_of_lands hk hlands ?_ h
  rw [pow_succ]
  linarith [abs_add_le c d]

protected theorem sub (hx : Within x b) (hy : Within y b) (h : b + 1 ≤ 127) :
    Within (x - y) (b + 2) := by
  obtain ⟨c, hc, hcle⟩ := hx
  obtain ⟨d, hd, hdle⟩ := hy
  obtain ⟨k, hk, hlands⟩ := sub_lands (proper_unpack x) (proper_unpack y) hc hd
  refine within_of_lands hk hlands ?_ h
  rw [pow_succ]
  linarith [abs_sub c d]

end Within

end TileTracer.Binary32
