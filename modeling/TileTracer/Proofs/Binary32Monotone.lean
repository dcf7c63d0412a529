import TileTracer.Proofs.Binary32Arithmetic
import TileTracer.Proofs.MonotoneScalars

/-!
Places are compared as limits: what is not a number stands below all numbers as a limit from below,
and above all numbers as a limit from above. Sums, differences and products keep this order.
-/

namespace TileTracer.Binary32

open Float.Model (Format UnpackedFloat totalExponent)
open Float.Model.UnpackedFloat
open Scalar

/-! ## Places as limits -/

/-- The place of a limit from below. -/
def lowest (p : Option ℤ) : ℤ := p.getD (-infinitySteps)

def highest (p : Option ℤ) : ℤ := p.getD infinitySteps

def Beneath (p q : Option ℤ) : Prop := lowest p ≤ lowest q ∧ highest p ≤ highest q

theorem Beneath.refl (p : Option ℤ) : Beneath p p := ⟨le_rfl, le_rfl⟩

theorem Beneath.trans {p q r : Option ℤ} (hpq : Beneath p q) (hqr : Beneath q r) : Beneath p r :=
  ⟨hpq.1.trans hqr.1, hpq.2.trans hqr.2⟩

theorem lowest_neg (p : Option ℤ) : lowest (p.map fun k => -k) = -highest p := by
  cases p <;> rfl

theorem highest_neg (p : Option ℤ) : highest (p.map fun k => -k) = -lowest p := by
  cases p
  · exact (neg_neg _).symm
  · rfl

theorem beneath_neg {p q : Option ℤ} :
    Beneath (p.map fun k => -k) (q.map fun k => -k) ↔ Beneath q p := by
  unfold Beneath
  rw [lowest_neg, lowest_neg, highest_neg, highest_neg, neg_le_neg_iff, neg_le_neg_iff, and_comm]

variable {f g : UnpackedFloat}

theorem infinite_or_rational (f : UnpackedFloat) :
    f = .notANumber ∨ (∃ s, f = .infinity s) ∨ ∃ x, rational? f = some x := by
  cases f with
  | notANumber => exact .inl rfl
  | infinity s => exact .inr (.inl ⟨s, rfl⟩)
  | zero s => exact .inr (.inr ⟨0, rfl⟩)
  | finite s m e hm => exact .inr (.inr ⟨_, rfl⟩)

theorem place_of_rational (hf : Proper f) {x : ℚ} (hx : rational? f = some x) :
    ∃ k, place? f = some k ∧ -infinitySteps < k ∧ k < infinitySteps := by
  have hplace : ∃ k, place? f = some k := by
    cases f with
    | notANumber => cases hx
    | infinity s => cases hx
    | zero s => exact ⟨0, rfl⟩
    | finite s m e hm => exact ⟨_, rfl⟩
  obtain ⟨k, hk⟩ := hplace
  exact ⟨k, hk, (lands_rational hf hx hk).2⟩

theorem limits_between (hf : Proper f) :
    -infinitySteps ≤ lowest (place? f) ∧ highest (place? f) ≤ infinitySteps := by
  have hpos := infinitySteps_pos
  rcases infinite_or_rational f with rfl | ⟨s, rfl⟩ | ⟨x, hx⟩
  · exact ⟨le_rfl, le_rfl⟩
  · cases s <;> exact ⟨by decide, by decide⟩
  · obtain ⟨k, hk, hbetween⟩ := place_of_rational hf hx
    rw [hk]
    exact ⟨hbetween.1.le, hbetween.2.le⟩

/-! ## Functions of one operand -/

/-- The results of an operation are those of a function of rationals, and infinities go to
themselves. -/
structure Extends (result : UnpackedFloat → Option ℤ) (φ : ℚ → ℚ) : Prop where
  notANumber : result .notANumber = none
  infinity (s : Sign) : result (.infinity s) = some (s.apply infinitySteps)
  rational {f : UnpackedFloat} {x : ℚ} : Proper f → rational? f = some x →
    ∃ k, result f = some k ∧ Lands (φ x) k

theorem Extends.beneath {result : UnpackedFloat → Option ℤ} {φ : ℚ → ℚ} (h : Extends result φ)
    (hφ : Monotone φ) (hf : Proper f) (hg : Proper g) (hfg : Beneath (place? f) (place? g)) :
    Beneath (result f) (result g) := by
  have hsame {f : UnpackedFloat} (hf : f = .notANumber ∨ ∃ s, f = .infinity s) :
      result f = place? f := by
    rcases hf with rfl | ⟨s, rfl⟩
    · exact h.notANumber
    · exact h.infinity s
  rcases or_assoc.mpr (infinite_or_rational f) with hfEnd | ⟨x, hx⟩ <;>
    rcases or_assoc.mpr (infinite_or_rational g) with hgEnd | ⟨y, hy⟩
  · rw [hsame hfEnd, hsame hgEnd]
    exact hfg
  · obtain ⟨j, hj, hfinite⟩ := place_of_rational hg hy
    obtain ⟨l, hl, hlands⟩ := h.rational hg hy
    have hbetween := hlands.between
    rw [hsame hfEnd, hl]
    rw [hj] at hfg
    rcases hfEnd with rfl | ⟨_ | _, rfl⟩ <;>
      simp only [Beneath, lowest, highest, place?, Sign.apply, Option.getD_none, Option.getD_some]
        at hfg ⊢ <;> omega
  · obtain ⟨i, hi, hfinite⟩ := place_of_rational hf hx
    obtain ⟨k, hk, hlands⟩ := h.rational hf hx
    have hbetween := hlands.between
    rw [hsame hgEnd, hk]
    rw [hi] at hfg
    rcases hgEnd with rfl | ⟨_ | _, rfl⟩ <;>
      simp only [Beneath, lowest, highest, place?, Sign.apply, Option.getD_none, Option.getD_some]
        at hfg ⊢ <;> omega
  · obtain ⟨i, hi, -⟩ := place_of_rational hf hx
    obtain ⟨j, hj, -⟩ := place_of_rational hg hy
    obtain ⟨k, hk, hlands⟩ := h.rational hf hx
    obtain ⟨l, hl, hlands'⟩ := h.rational hg hy
    rw [hi, hj] at hfg
    have hkl := hlands.mono hlands' (hφ (rational_le_of_place_le hf hg hx hy hi hj hfg.1))
    rw [hk, hl]
    exact ⟨hkl, hkl⟩

/-! ## Differences and sums -/

theorem shifted_eq (s : Sign) (m : ℕ) {e g : ℤ} (h : g ≤ e) :
    ((s.apply (m <<< (e - g).toNat : ℕ) : ℤ) : ℚ) * 2 ^ g = signed s (m * 2 ^ e) := by
  have hshift : ((m <<< (e - g).toNat : ℕ) : ℚ) * 2 ^ g = m * 2 ^ e := by
    rw [Nat.shiftLeft_eq, Nat.cast_mul, Nat.cast_pow, Nat.cast_ofNat, mul_assoc, ← zpow_natCast,
      ← zpow_add₀ two_ne_zero, Int.toNat_of_nonneg (sub_nonneg.mpr h), sub_add_cancel]
  cases s with
  | negative => rw [Sign.apply, Int.cast_neg, Int.cast_natCast, neg_mul, hshift, signed]
  | positive => rw [Sign.apply, Int.cast_natCast, hshift, signed]

theorem sub_lands (hf : Proper f) (hg : Proper g) {x y : ℚ} (hx : rational? f = some x)
    (hy : rational? g = some y) :
    ∃ k, place? (repack (sub .binary32 f g)) = some k ∧ Lands (x - y) k := by
  cases f with
  | notANumber => cases hx
  | infinity s => cases hx
  | zero s =>
      cases hx
      cases g with
      | notANumber => cases hy
      | infinity t => cases hy
      | zero t =>
          cases hy
          refine ⟨0, ?_, .inl ⟨le_of_eq (sub_zero 0).symm, 0, ?_, rfl⟩⟩
          · cases s <;> cases t <;> rfl
          · rw [sub_zero]
            exact .zero
      | finite t n e hn =>
          have hneg : Proper (.finite (-t) n e hn) := hg
          refine ⟨_, place?_repack_finite hn hneg, ?_⟩
          have hlands := (lands_rational hneg rfl rfl).1
          cases hy
          rw [zero_sub]
          cases t with
          | negative => exact (neg_neg ((n : ℚ) * 2 ^ e)).symm ▸ hlands
          | positive => exact hlands
  | finite s m e hm =>
      cases g with
      | notANumber => cases hy
      | infinity t => cases hy
      | zero t =>
          cases hy
          refine ⟨_, place?_repack_finite hm hf, ?_⟩
          rw [sub_zero]
          exact (lands_rational hf hx rfl).1
      | finite t n e' hn =>
          obtain ⟨k, hk, hlands⟩ := normalize_lands
            (s.apply (m <<< (e - min e e').toNat : ℕ) - t.apply (n <<< (e' - min e e').toNat : ℕ))
            (min e e') .positive
          refine ⟨k, hk, ?_⟩
          cases hx
          cases hy
          rwa [Int.cast_sub, sub_mul, shifted_eq s m (min_le_left e e'),
            shifted_eq t n (min_le_right e e')] at hlands

theorem infinity_sub_rational (s : Sign) {y : ℚ} (hy : rational? g = some y) :
    sub .binary32 (.infinity s) g = .infinity s := by
  cases g with
  | notANumber => cases hy
  | infinity t => cases hy
  | zero t => rfl
  | finite t n e hn => rfl

theorem rational_sub_infinity (s : Sign) {x : ℚ} (hx : rational? f = some x) :
    sub .binary32 f (.infinity s) = .infinity (-s) := by
  cases f with
  | notANumber => cases hx
  | infinity t => cases hx
  | zero t => rfl
  | finite t n e hn => rfl

theorem sub_infinity_place (hf : Proper f) :
    place? (repack (sub .binary32 f (.infinity .positive))) =
        (if highest (place? f) = infinitySteps then none else some (-infinitySteps)) ∧
      place? (repack (sub .binary32 f (.infinity .negative))) =
        if lowest (place? f) = -infinitySteps then none else some infinitySteps := by
  rcases infinite_or_rational f with rfl | ⟨_ | _, rfl⟩ | ⟨x, hx⟩
  · exact ⟨rfl, rfl⟩
  · exact ⟨rfl, rfl⟩
  · exact ⟨rfl, rfl⟩
  · obtain ⟨k, hk, hlow, hhigh⟩ := place_of_rational hf hx
    have hlowest : lowest (place? f) ≠ -infinitySteps := hk ▸ ne_of_gt hlow
    have hhighest : highest (place? f) ≠ infinitySteps := hk ▸ ne_of_lt hhigh
    rw [if_neg hlowest, if_neg hhighest, rational_sub_infinity _ hx, rational_sub_infinity _ hx]
    exact ⟨place?_repack_infinity _, place?_repack_infinity _⟩

theorem infinity_sub_place (hg : Proper g) :
    place? (repack (sub .binary32 (.infinity .positive) g)) =
        (if highest (place? g) = infinitySteps then none else some infinitySteps) ∧
      place? (repack (sub .binary32 (.infinity .negative) g)) =
        if lowest (place? g) = -infinitySteps then none else some (-infinitySteps) := by
  rcases infinite_or_rational g with rfl | ⟨_ | _, rfl⟩ | ⟨y, hy⟩
  · exact ⟨rfl, rfl⟩
  · exact ⟨rfl, rfl⟩
  · exact ⟨rfl, rfl⟩
  · obtain ⟨k, hk, hlow, hhigh⟩ := place_of_rational hg hy
    have hlowest : lowest (place? g) ≠ -infinitySteps := hk ▸ ne_of_gt hlow
    have hhighest : highest (place? g) ≠ infinitySteps := hk ▸ ne_of_lt hhigh
    rw [if_neg hlowest, if_neg hhighest, infinity_sub_rational _ hy, infinity_sub_rational _ hy]
    exact ⟨place?_repack_infinity _, place?_repack_infinity _⟩

theorem place?_repack_notANumber : place? (repack .notANumber) = none := rfl

theorem sub_notANumber (f : UnpackedFloat) : sub .binary32 f .notANumber = .notANumber := by
  cases f <;> rfl

theorem notANumber_sub (g : UnpackedFloat) : sub .binary32 .notANumber g = .notANumber := by
  cases g <;> rfl

theorem beneath_lower_ends {c d : Prop} [Decidable c] [Decidable d] (h : c → d) :
    Beneath (if c then none else some (-infinitySteps))
      (if d then none else some (-infinitySteps)) := by
  by_cases hd : d
  · rw [if_pos hd]
    split <;> exact ⟨by decide, by decide⟩
  · rw [if_neg hd, if_neg (mt h hd)]
    exact .refl _

theorem beneath_upper_ends {c d : Prop} [Decidable c] [Decidable d] (h : d → c) :
    Beneath (if c then none else some infinitySteps) (if d then none else some infinitySteps) := by
  by_cases hc : c
  · rw [if_pos hc]
    split <;> exact ⟨by decide, by decide⟩
  · rw [if_neg hc, if_neg (mt h hc)]
    exact .refl _

variable {f' g' : UnpackedFloat}

theorem sub_beneath_left (hf : Proper f) (hf' : Proper f') (hg : Proper g)
    (h : Beneath (place? f) (place? f')) :
    Beneath (place? (repack (sub .binary32 f g))) (place? (repack (sub .binary32 f' g))) := by
  have hlimits := limits_between hf
  have hlimits' := limits_between hf'
  rcases infinite_or_rational g with rfl | ⟨s, rfl⟩ | ⟨y, hy⟩
  · rw [sub_notANumber, sub_notANumber]
    exact .refl _
  · unfold Beneath at h
    cases s with
    | negative =>
        rw [(sub_infinity_place hf).2, (sub_infinity_place hf').2]
        exact beneath_upper_ends (by omega)
    | positive =>
        rw [(sub_infinity_place hf).1, (sub_infinity_place hf').1]
        exact beneath_lower_ends (by omega)
  · have hextends : Extends (fun f => place? (repack (sub .binary32 f g))) fun x => x - y := by
      refine ⟨?_, fun s => ?_, fun hf hx => sub_lands hf hg hx hy⟩
      · rw [notANumber_sub]
        rfl
      · rw [infinity_sub_rational s hy, place?_repack_infinity]
    exact hextends.beneath (fun _ _ h => sub_le_sub_right h y) hf hf' h

theorem Lands.neg {x : ℚ} {k : ℤ} (h : Lands x k) : Lands (-x) (-k) := by
  rcases h with ⟨hx, r, hr, rfl⟩ | ⟨hx, r, hr, rfl⟩
  · exact .inr ⟨neg_nonpos.mpr hx, r, (neg_neg x).symm ▸ hr, rfl⟩
  · exact .inl ⟨neg_nonneg.mpr hx, r, hr, neg_neg _⟩

theorem sub_beneath_right (hf : Proper f) (hg : Proper g) (hg' : Proper g')
    (h : Beneath (place? g) (place? g')) :
    Beneath (place? (repack (sub .binary32 f g'))) (place? (repack (sub .binary32 f g))) := by
  have hlimits := limits_between hg
  have hlimits' := limits_between hg'
  rcases infinite_or_rational f with rfl | ⟨s, rfl⟩ | ⟨x, hx⟩
  · rw [notANumber_sub, notANumber_sub]
    exact .refl _
  · unfold Beneath at h
    cases s with
    | negative =>
        rw [(infinity_sub_place hg).2, (infinity_sub_place hg').2]
        exact beneath_lower_ends (by omega)
    | positive =>
        rw [(infinity_sub_place hg).1, (infinity_sub_place hg').1]
        exact beneath_upper_ends (by omega)
  · have hextends : Extends
        (fun g => (place? (repack (sub .binary32 f g))).map fun k => -k) fun y => y - x := by
      refine ⟨?_, fun s => ?_, fun {g y} hg hy => ?_⟩
      · rw [sub_notANumber]
        rfl
      · rw [rational_sub_infinity s hx, place?_repack_infinity]
        cases s <;> rfl
      · obtain ⟨k, hk, hlands⟩ := sub_lands hf hg hx hy
        rw [hk]
        exact ⟨-k, rfl, neg_sub x y ▸ hlands.neg⟩
    exact beneath_neg.mp (hextends.beneath (fun _ _ h => sub_le_sub_right h x) hg hg' h)

theorem apply_neg (s : Sign) (k : ℤ) : (-s).apply k = -s.apply k := by
  cases s with
  | negative => exact (neg_neg k).symm
  | positive => rfl

theorem proper_neg (hg : Proper g) : Proper g.neg := by
  cases g <;> exact hg

theorem place?_neg (g : UnpackedFloat) : place? g.neg = (place? g).map fun k => -k := by
  cases g with
  | notANumber => rfl
  | infinity s => cases s <;> rfl
  | zero s => rfl
  | finite s m e hm => cases s <;> simp [UnpackedFloat.neg, place?, Sign.apply]

theorem add_eq_sub_neg (f g : UnpackedFloat) : add .binary32 f g = sub .binary32 f g.neg := by
  cases f with
  | notANumber => cases g <;> rfl
  | infinity s =>
      cases g with
      | infinity t => cases s <;> cases t <;> rfl
      | _ => rfl
  | zero s =>
      cases g with
      | notANumber => rfl
      | infinity t => cases t <;> rfl
      | zero t => cases s <;> cases t <;> rfl
      | finite t n e hn => cases t <;> rfl
  | finite s m e hm =>
      cases g with
      | notANumber => rfl
      | infinity t => cases t <;> rfl
      | zero t => rfl
      | finite t n e' hn =>
          refine congrArg (fun k => normalize .binary32 k (min e e') .positive) ?_
          rw [apply_neg, sub_neg_eq_add]

theorem add_beneath (hf : Proper f) (hf' : Proper f') (hg : Proper g) (hg' : Proper g')
    (h : Beneath (place? f) (place? f')) (h' : Beneath (place? g) (place? g')) :
    Beneath (place? (repack (add .binary32 f g))) (place? (repack (add .binary32 f' g'))) := by
  rw [add_eq_sub_neg, add_eq_sub_neg]
  refine (sub_beneath_left hf hf' (proper_neg hg) h).trans
    (sub_beneath_right hf' (proper_neg hg') (proper_neg hg) ?_)
  rw [place?_neg, place?_neg]
  exact beneath_neg.mpr h'

theorem sub_beneath (hf : Proper f) (hf' : Proper f') (hg : Proper g) (hg' : Proper g')
    (h : Beneath (place? f) (place? f')) (h' : Beneath (place? g) (place? g')) :
    Beneath (place? (repack (sub .binary32 f g'))) (place? (repack (sub .binary32 f' g))) :=
  (sub_beneath_left hf hf' hg' h).trans (sub_beneath_right hf' hg hg' h')

/-! ## Products -/

theorem mul_notANumber (f : UnpackedFloat) : mul .binary32 f .notANumber = .notANumber := by
  cases f <;> rfl

theorem apply_apply (t : Sign) (k : ℤ) : t.apply (t.apply k) = k := by
  cases t with
  | negative => exact neg_neg k
  | positive => rfl

theorem Lands.of_signed_mul {s t : Sign} {x : ℚ} {k : ℤ} (h : Lands (signed (s * t) x) k) :
    Lands (signed s x) (t.apply k) := by
  cases t with
  | negative =>
      have hneg := h.neg
      cases s with
      | negative => exact hneg
      | positive => exact neg_neg x ▸ hneg
  | positive =>
      cases s with
      | negative => exact h
      | positive => exact h

theorem signed_mul (s : Sign) (x y : ℚ) : signed s x * y = signed s (x * y) := by
  cases s with
  | negative => exact neg_mul x y
  | positive => rfl

theorem mul_rounded {m n : ℕ} {e e' : ℤ} (s : Sign) (hm : Canonical m e) (hn : Canonical n e')
    (hpos : 0 < m) (hpos' : 0 < n) :
    ∃ r, RoundsTo (m * 2 ^ e * (n * 2 ^ e')) r ∧
      Rounded s r (roundWithAccuracy .binary32 s (m * n) (e + e') .exact) := by
  apply roundWithAccuracy_rounded
  · have hgrid : (m : ℚ) * 2 ^ e * (n * 2 ^ e') / 2 ^ (e + e') = (m * n : ℕ) := by
      rw [mul_mul_mul_comm, ← zpow_add₀ two_ne_zero,
        mul_div_cancel_right₀ _ (zpow_pos two_pos _).ne', Nat.cast_mul]
    rw [hgrid]
    exact standsFor_exact _
  · rcases hm.leading with hlead | rfl
    · exact .inr (hlead.trans (Nat.le_mul_of_pos_right m hpos'))
    · rcases hn.leading with hlead | rfl
      · exact .inr (hlead.trans (Nat.le_mul_of_pos_left n hpos))
      · exact .inl (by decide)

theorem mul_lands {t : Sign} {n : ℕ} {e : ℤ} (hn : 0 < n) (hc : Canonical n e) (hf : Proper f)
    {x : ℚ} (hx : rational? f = some x) :
    ∃ k, place? (repack (mul .binary32 f (.finite t n e hn))) = some (t.apply k) ∧
      Lands (x * (n * 2 ^ e)) k := by
  cases f with
  | notANumber => cases hx
  | infinity s => cases hx
  | zero s =>
      cases hx
      refine ⟨0, (place?_repack_zero (s * t)).trans ?_, ?_⟩
      · cases t <;> rfl
      · rw [zero_mul]
        exact lands_zero
  | finite s m e' hm =>
      cases hx
      obtain ⟨k, hk, hlands⟩ := lands_of_rounded (by positivity) (mul_rounded (s * t) hf.1 hc hm hn)
      refine ⟨t.apply k, by rwa [apply_apply], ?_⟩
      rw [signed_mul]
      exact hlands.of_signed_mul

/-- The infinity on the side of a place; there is none at zero. -/
def side (p : Option ℤ) : Option ℤ :=
  p.bind fun k =>
    if 0 < k then some infinitySteps else if k < 0 then some (-infinitySteps) else none

theorem side_apply (s : Sign) {k : ℤ} (hk : 0 < k) :
    side (some (s.apply k)) = some (s.apply infinitySteps) := by
  cases s with
  | negative =>
      change (if 0 < -k then _ else if -k < 0 then _ else _) = _
      rw [if_neg (by omega), if_pos (by omega)]
      rfl
  | positive => exact if_pos hk

theorem mul_infinity_place (t : Sign) (hf : Proper f) :
    (place? (repack (mul .binary32 f (.infinity t)))).map t.apply = side (place? f) := by
  have hinfinity (s : Sign) :
      (place? (repack (.infinity (s * t)))).map t.apply = some (s.apply infinitySteps) := by
    rw [place?_repack_infinity]
    cases s <;> cases t <;> rfl
  cases f with
  | notANumber => exact congrArg _ place?_repack_notANumber
  | infinity s => exact (hinfinity s).trans (side_apply s infinitySteps_pos).symm
  | zero s => exact congrArg _ place?_repack_notANumber
  | finite s m e hm => exact (hinfinity s).trans (side_apply s (hf.1.steps_pos hm)).symm

theorem Beneath.side {p q : Option ℤ} (h : Beneath p q) : Beneath (side p) (side q) := by
  have hpos := infinitySteps_pos
  cases p <;> cases q <;> simp only [Beneath, lowest, highest, Binary32.side, Option.getD_none,
    Option.getD_some, Option.bind_none, Option.bind_some] at h ⊢
  all_goals grind

theorem mul_beneath {t : Sign} {c : UnpackedFloat} (hc : Proper c)
    (hsign : c = .infinity t ∨ ∃ n e hn, c = .finite t n e hn) (hf : Proper f) (hf' : Proper f')
    (h : Beneath (place? f) (place? f')) :
    Beneath ((place? (repack (mul .binary32 f c))).map t.apply)
      ((place? (repack (mul .binary32 f' c))).map t.apply) := by
  rcases hsign with rfl | ⟨n, e, hn, rfl⟩
  · rw [mul_infinity_place t hf, mul_infinity_place t hf']
    exact h.side
  · have hextends : Extends
        (fun f => (place? (repack (mul .binary32 f (.finite t n e hn)))).map t.apply)
        fun x => x * (n * 2 ^ e) := by
      refine ⟨congrArg _ place?_repack_notANumber, fun s => ?_, fun {g y} hg hy => ?_⟩
      · refine (congrArg _ (place?_repack_infinity (s * t))).trans ?_
        cases s <;> cases t <;> rfl
      · obtain ⟨k, hk, hlands⟩ := mul_lands (t := t) hn hc.1 hg hy
        rw [hk]
        exact ⟨k, congrArg some (apply_apply t k), hlands⟩
    exact hextends.beneath (fun _ _ h => mul_le_mul_of_nonneg_right h (by positivity)) hf hf' h

/-! ## The scalars -/

theorem rank?_infinity : rank? (Scalar.infinity : Float32) = some infinitySteps := by
  decide

theorem rank?_neg_infinity : rank? (-Scalar.infinity : Float32) = some (-infinitySteps) := by
  decide

theorem rank_between {x : Float32} {k : ℤ} (hk : rank? x = some k) :
    -infinitySteps ≤ k ∧ k ≤ infinitySteps := by
  have hlimits := limits_between (proper_unpack x)
  unfold rank? at hk
  rwa [hk] at hlimits

theorem under_iff {x y : Float32} : Under x y ↔ Beneath (rank? x) (rank? y) :=
  ranking.under_iff rank?_neg_infinity rank?_infinity rank_between

theorem unpack_of_sign {c : Float32} {k : ℤ} (hk : rank? c = some k) :
    (0 < k → c.toModel.unpack = .infinity .positive ∨
        ∃ n e hn, c.toModel.unpack = .finite .positive n e hn) ∧
      (k < 0 → c.toModel.unpack = .infinity .negative ∨
        ∃ n e hn, c.toModel.unpack = .finite .negative n e hn) := by
  have hproper := proper_unpack c
  unfold rank? at hk
  generalize c.toModel.unpack = f at hk hproper
  have hpos := infinitySteps_pos
  cases f with
  | notANumber => cases hk
  | infinity s =>
      cases hk
      cases s with
      | negative => exact ⟨fun h => absurd h (by decide), fun _ => .inl rfl⟩
      | positive => exact ⟨fun _ => .inl rfl, fun h => absurd h (by decide)⟩
  | zero s =>
      cases hk
      exact ⟨fun h => absurd h (lt_irrefl 0), fun h => absurd h (lt_irrefl 0)⟩
  | finite s n e hn =>
      have hsteps := hproper.1.steps_pos hn
      cases hk
      cases s with
      | negative =>
          simp only [Sign.apply]
          exact ⟨fun h => absurd h (by omega), fun _ => .inr ⟨n, e, hn, rfl⟩⟩
      | positive =>
          simp only [Sign.apply]
          exact ⟨fun _ => .inr ⟨n, e, hn, rfl⟩, fun h => absurd h (by omega)⟩

theorem unpack_of_not_number {x : Float32} (hx : ¬ x ≤ x) : x.toModel.unpack = .notANumber := by
  rcases infinite_or_rational x.toModel.unpack with h | ⟨s, h⟩ | ⟨y, hy⟩
  · exact h
  · exact absurd (le_self_iff.mpr ⟨_, congrArg place? h⟩) hx
  · obtain ⟨k, hk, -⟩ := place_of_rational (proper_unpack x) hy
    exact absurd (le_self_iff.mpr ⟨k, hk⟩) hx

theorem rank?_zero : rank? (0.0 : Float32) = some 0 := by
  decide

/-! ## Reciprocals -/

theorem div_finite_zero (s t : Sign) {m : ℕ} {e : ℤ} (hm : 0 < m) :
    div .binary32 (.finite s m e hm) (.zero t) = .infinity (s / t) := rfl

theorem div_finite_notANumber (s : Sign) {m : ℕ} {e : ℤ} (hm : 0 < m) :
    div .binary32 (.finite s m e hm) .notANumber = .notANumber := rfl

theorem div_place_pos {s t : Sign} {m n : ℕ} {e f : ℤ} (hm : 0 < m) (hn : 0 < n)
    (hlarge : (n : ℚ) * 2 ^ f * 2 ^ (-149 : ℤ) ≤ m * 2 ^ e) :
    ∃ k, 0 < k ∧
      place? (repack (div .binary32 (.finite s m e hm) (.finite t n f hn))) =
        some ((s / t).apply k) := by
  obtain ⟨r, hr, hrounded⟩ := div_rounded (s := s) (t := t) (e := e) (f := f) hm hn
  have hleast : Canonical 1 (-149) := ⟨by decide, le_rfl, .inr rfl⟩
  have hpos : (0 : ℚ) < n * 2 ^ f := by positivity
  have hbelow : ((1 : ℕ) : ℚ) * 2 ^ (-149 : ℤ) ≤ m * 2 ^ e / (n * 2 ^ f) := by
    rw [Nat.cast_one, one_mul, le_div_iff₀ hpos, mul_comm]
    exact hlarge
  have hr : 1 ≤ r := hleast.roundsTo.mono hr hbelow
  exact ⟨min r infinitySteps, lt_min (by omega) infinitySteps_pos, place?_pack hrounded⟩

theorem Canonical.lt_two_pow {n : ℕ} {e : ℤ} (h : Canonical n e) (he : e ≤ 104) :
    (n : ℚ) * 2 ^ e < 2 ^ 128 := by
  have hn : (n : ℚ) < 2 ^ 24 := by exact_mod_cast h.mantissa_lt
  have hpow : (2 : ℚ) ^ e ≤ 2 ^ (104 : ℤ) := zpow_le_zpow_right₀ one_le_two he
  calc (n : ℚ) * 2 ^ e < 2 ^ 24 * 2 ^ e := mul_lt_mul_of_pos_right hn (zpow_pos two_pos e)
    _ ≤ 2 ^ 24 * 2 ^ (104 : ℤ) := mul_le_mul_of_nonneg_left hpow (by positivity)
    _ = 2 ^ 128 := by norm_num

theorem unpack_one : ∃ h, (1.0 : Float32).toModel.unpack = .finite .positive (2 ^ 23) (-23) h :=
  ⟨by decide, rfl⟩

/-- Only the reciprocal of an infinity is zero. -/
theorem reciprocal_apart {c : Float32} (hlow : ¬ c ≤ -Scalar.infinity)
    (hhigh : ¬ Scalar.infinity ≤ c) :
    (1.0 : Float32) / c < 0.0 ∨ (0.0 : Float32) < 1.0 / c ∨ ¬ (1.0 : Float32) / c ≤ 1.0 / c := by
  obtain ⟨hone, hunpack⟩ := unpack_one
  have hrank : rank? ((1.0 : Float32) / c) =
      place? (repack (div .binary32 (.finite .positive (2 ^ 23) (-23) hone) c.toModel.unpack)) :=
    congrArg (fun f => place? (repack (div .binary32 f c.toModel.unpack))) hunpack
  have hside (s : Sign) {k : ℤ} (hk : 0 < k) (h : rank? ((1.0 : Float32) / c) = some (s.apply k)) :
      (1.0 : Float32) / c < 0.0 ∨ (0.0 : Float32) < 1.0 / c ∨
        ¬ (1.0 : Float32) / c ≤ 1.0 / c := by
    cases s with
    | negative => exact .inl (lt_iff.mpr ⟨_, _, h, rank?_zero, neg_neg_of_pos hk⟩)
    | positive => exact .inr (.inl (lt_iff.mpr ⟨_, _, rank?_zero, h, hk⟩))
  have hproper := proper_unpack c
  cases hc : c.toModel.unpack with
  | notANumber =>
      rw [hc, div_finite_notANumber, place?_repack_notANumber] at hrank
      refine .inr (.inr fun hself => ?_)
      obtain ⟨k, hk⟩ := le_self_iff.mp hself
      cases hrank.symm.trans hk
  | infinity s =>
      have hplace : rank? c = some (s.apply infinitySteps) := congrArg place? hc
      cases s with
      | negative => exact absurd (le_iff.mpr ⟨_, _, hplace, rank?_neg_infinity, le_rfl⟩) hlow
      | positive => exact absurd (le_iff.mpr ⟨_, _, rank?_infinity, hplace, le_rfl⟩) hhigh
  | zero s =>
      rw [hc, div_finite_zero, place?_repack_infinity] at hrank
      exact hside _ infinitySteps_pos hrank
  | finite s n e hn =>
      -- A finite divisor lies below `2 ^ 128`, whose reciprocal is far above the finest step.
      rw [hc] at hrank hproper
      obtain ⟨k, hk, hplace⟩ := div_place_pos (s := .positive) (t := s) (e := -23) (f := e) hone hn
        (by
          have hsmall := hproper.1.lt_two_pow hproper.2
          have hbound : (2 : ℚ) ^ 128 * 2 ^ (-149 : ℤ) ≤ ((2 ^ 23 : ℕ) : ℚ) * 2 ^ (-23 : ℤ) := by
            norm_num
          exact (mul_le_mul_of_nonneg_right hsmall.le (by positivity)).trans hbound)
      exact hside _ hk (hrank.trans hplace)

instance : MonotoneScalar Float32 where
  neg_infinity_lt_infinity := lt_iff.mpr
    ⟨_, _, rank?_neg_infinity, rank?_infinity, by decide⟩
  le_infinity h := by
    obtain ⟨k, hk⟩ := le_self_iff.mp h
    exact le_iff.mpr ⟨k, _, hk, rank?_infinity, (rank_between hk).2⟩
  neg_infinity_le h := by
    obtain ⟨k, hk⟩ := le_self_iff.mp h
    exact le_iff.mpr ⟨_, k, rank?_neg_infinity, hk, (rank_between hk).1⟩
  add_under {a b c d} hab hcd := under_iff.mpr
    (add_beneath (proper_unpack a) (proper_unpack b) (proper_unpack c) (proper_unpack d)
      (under_iff.mp hab) (under_iff.mp hcd))
  sub_under {a b c d} hab hcd := under_iff.mpr
    (sub_beneath (proper_unpack a) (proper_unpack b) (proper_unpack c) (proper_unpack d)
      (under_iff.mp hab) (under_iff.mp hcd))
  mul_under_of_pos {a b c} hc hab := by
    obtain ⟨z, k, hz, hk, hlt⟩ := lt_iff.mp hc
    cases rank?_zero.symm.trans hz
    have hproduct := mul_beneath (proper_unpack c) ((unpack_of_sign hk).1 hlt) (proper_unpack a)
      (proper_unpack b) (under_iff.mp hab)
    have hpositive (p : Option ℤ) : p.map (Sign.apply .positive) = p := by cases p <;> rfl
    rw [hpositive, hpositive] at hproduct
    exact under_iff.mpr hproduct
  mul_under_of_neg {a b c} hc hab := by
    obtain ⟨k, z, hk, hz, hlt⟩ := lt_iff.mp hc
    cases rank?_zero.symm.trans hz
    have hproduct := mul_beneath (proper_unpack c) ((unpack_of_sign hk).2 hlt) (proper_unpack a)
      (proper_unpack b) (under_iff.mp hab)
    exact under_iff.mpr (beneath_neg.mp hproduct)
  mul_under_of_not_number {a b c} hc := by
    have hnone (x : Float32) : rank? (x * c) = none := by
      change place? (repack (mul .binary32 x.toModel.unpack c.toModel.unpack)) = none
      rw [unpack_of_not_number hc, mul_notANumber, place?_repack_notANumber]
    rw [under_iff, hnone, hnone]
    exact .refl none

end TileTracer.Binary32
