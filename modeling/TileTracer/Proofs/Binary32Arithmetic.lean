import Mathlib.Tactic.FieldSimp
import TileTracer.Proofs.Binary32Rounding
import TileTracer.Proofs.NarrowedWindow

namespace TileTracer.Binary32

open Float.Model (Format UnpackedFloat totalExponent)
open Float.Model.UnpackedFloat

/-- A rational lands at this place of the ladder, below zero for negative rationals. -/
def Lands (x : ℚ) (k : ℤ) : Prop :=
  (0 ≤ x ∧ ∃ r, RoundsTo x r ∧ k = min r infinitySteps) ∨
  (x ≤ 0 ∧ ∃ r, RoundsTo (-x) r ∧ k = -min r infinitySteps)

theorem RoundsTo.zero : RoundsTo 0 0 :=
  ⟨-149, 0, le_rfl, .inr rfl, zpow_pos two_pos _, by simpa using NearestEven.of_int 0, rfl⟩

theorem RoundsTo.nonneg {x : ℚ} {r : ℤ} (h : RoundsTo x r) (hx : 0 ≤ x) : 0 ≤ r :=
  RoundsTo.zero.mono h hx

theorem RoundsTo.eq_zero {r : ℤ} (h : RoundsTo 0 r) : r = 0 :=
  le_antisymm (h.mono .zero le_rfl) (h.nonneg le_rfl)

theorem infinitySteps_pos : 0 < infinitySteps := by decide

theorem Lands.mono {x y : ℚ} {k l : ℤ} (hx : Lands x k) (hy : Lands y l) (hxy : x ≤ y) : k ≤ l := by
  have hpos := infinitySteps_pos
  rcases hx with ⟨hx, r, hr, rfl⟩ | ⟨hx, r, hr, rfl⟩ <;>
    rcases hy with ⟨hy, s, hs, rfl⟩ | ⟨hy, s, hs, rfl⟩
  · exact min_le_min_right _ (hr.mono hs hxy)
  · obtain rfl : x = 0 := by linarith
    obtain rfl : y = 0 := by linarith
    rw [neg_zero] at hs
    rw [hr.eq_zero, hs.eq_zero]
    omega
  · have := hr.nonneg (neg_nonneg.mpr hx)
    have := hs.nonneg hy
    omega
  · have := hs.mono hr (neg_le_neg hxy)
    omega

theorem lands_zero : Lands 0 0 := .inl ⟨le_rfl, 0, .zero, rfl⟩

theorem Lands.eq_zero {k : ℤ} (h : Lands 0 k) : k = 0 :=
  le_antisymm (h.mono lands_zero le_rfl) (lands_zero.mono h le_rfl)

def signed (s : Sign) (x : ℚ) : ℚ :=
  match s with
  | .negative => -x
  | .positive => x

theorem Lands.of_roundsTo (s : Sign) {x : ℚ} {r : ℤ} (hx : 0 ≤ x) (h : RoundsTo x r) :
    Lands (signed s x) (s.apply (min r infinitySteps)) := by
  cases s with
  | negative => exact .inr ⟨neg_nonpos.mpr hx, r, (neg_neg x).symm ▸ h, rfl⟩
  | positive => exact .inl ⟨hx, r, h, rfl⟩

/-- A value after it has been written to the format and read back. -/
def repack (f : UnpackedFloat) : UnpackedFloat := unpack .binary32 (pack .binary32 f)

theorem lands_of_rounded {s : Sign} {x : ℚ} {f : UnpackedFloat} (hx : 0 ≤ x)
    (h : ∃ r, RoundsTo x r ∧ Rounded s r f) :
    ∃ k, place? (repack f) = some k ∧ Lands (signed s x) k := by
  obtain ⟨r, hr, hf⟩ := h
  exact ⟨_, place?_pack hf, .of_roundsTo s hx hr⟩

theorem place?_repack_zero (s : Sign) : place? (repack (.zero s)) = some 0 := by
  cases s <;> rfl

theorem place?_repack_infinity (s : Sign) :
    place? (repack (.infinity s)) = some (s.apply infinitySteps) := by
  cases s <;> rfl

theorem not_notANumber {k : ℤ} (h : place? (repack .notANumber) = some k) : False := by
  change none = some k at h
  cases h

theorem eq_zero_of_place {s : Sign} {k : ℤ} (h : place? (repack (.zero s)) = some k) : k = 0 :=
  Option.some.inj (h.symm.trans (place?_repack_zero s))

theorem eq_infinity_of_place {s : Sign} {k : ℤ} (h : place? (repack (.infinity s)) = some k) :
    k = s.apply infinitySteps :=
  Option.some.inj (h.symm.trans (place?_repack_infinity s))

theorem standsFor_exact (m : ℕ) : StandsFor (.ofMantissaAndAccuracy m .exact) m :=
  sub_self (m : ℚ)

theorem round_rounded (s : Sign) {m : ℕ} (hm : 0 < m) (e : ℤ) :
    ∃ r, RoundsTo (m * 2 ^ e) r ∧ Rounded s r (round .binary32 s m e) := by
  unfold UnpackedFloat.round
  rw [targetExponent_eq]
  unfold decreaseExponent
  dsimp only
  obtain ⟨k, hk⟩ : ∃ k, k = (e - max ((m.log2 : ℤ) + 1 + e - 24) (-149)).toNat := ⟨_, rfl⟩
  rw [← hk, Nat.shiftLeft_eq]
  apply roundWithAccuracy_rounded
  · have hgrid : (m : ℚ) * 2 ^ e / 2 ^ (e - k) = (m * 2 ^ k : ℕ) := by
      rw [mul_div_assoc, ← zpow_sub₀ two_ne_zero, sub_sub_cancel, zpow_natCast]
      push_cast
      rfl
    rw [hgrid]
    exact standsFor_exact _
  · by_cases hleast : e - k ≤ -149
    · exact .inl hleast
    · have hpow : 2 ^ m.log2 ≤ m := Nat.log2_self_le hm.ne'
      refine .inr ?_
      calc 2 ^ 23 ≤ 2 ^ (m.log2 + k) := Nat.pow_le_pow_right two_pos (by omega)
        _ = 2 ^ m.log2 * 2 ^ k := pow_add 2 _ _
        _ ≤ m * 2 ^ k := Nat.mul_le_mul_right _ hpow

theorem normalize_lands (m e : ℤ) (zeroSign : Sign) :
    ∃ k, place? (repack (normalize .binary32 m e zeroSign)) = some k ∧ Lands (m * 2 ^ e) k := by
  unfold UnpackedFloat.normalize
  rcases lt_trichotomy m 0 with hlt | rfl | hlt
  · rw [Int.compare_eq_lt.mpr hlt]
    have hcast : ((-m).toNat : ℚ) = -m := by
      exact_mod_cast Int.toNat_of_nonneg (by omega : 0 ≤ -m)
    have hlands := lands_of_rounded (by positivity)
      (round_rounded .negative (m := (-m).toNat) (by omega) e)
    rwa [hcast, signed, neg_mul, neg_neg] at hlands
  · rw [Int.compare_eq_eq.mpr rfl]
    refine ⟨0, place?_repack_zero zeroSign, ?_⟩
    rw [Int.cast_zero, zero_mul]
    exact lands_zero
  · rw [Int.compare_eq_gt.mpr hlt]
    have hcast : (m.toNat : ℚ) = m := by
      exact_mod_cast Int.toNat_of_nonneg hlt.le
    have hlands := lands_of_rounded (by positivity)
      (round_rounded .positive (m := m.toNat) (by omega) e)
    rwa [hcast, signed] at hlands

theorem standsFor_fraction (n : ℕ) {d : ℕ} (hd : 0 < d) :
    StandsFor (.ofMantissaAndAccuracy (n / d) (accuracyOfFraction (n % d) d)) (n / d) := by
  have hpos : (0 : ℚ) < d := by exact_mod_cast hd
  have hdiv : (n : ℚ) / d - (n / d : ℕ) = (n % d : ℕ) / d := by
    have h : (n : ℚ) = d * (n / d : ℕ) + (n % d : ℕ) := by exact_mod_cast (Nat.div_add_mod n d).symm
    rw [eq_div_iff hpos.ne', sub_mul, div_mul_cancel₀ _ hpos.ne']
    linarith
  have hlt : ((n % d : ℕ) : ℚ) < d := by exact_mod_cast Nat.mod_lt n hd
  unfold accuracyOfFraction
  split
  · next hzero =>
    change (n : ℚ) / d - (n / d : ℕ) = 0
    rw [hdiv, hzero, Nat.cast_zero, zero_div]
  · next hzero =>
    have hrem : (0 : ℚ) < (n % d : ℕ) := by exact_mod_cast Nat.pos_of_ne_zero hzero
    have hleft : 0 < (n : ℚ) / d - (n / d : ℕ) := hdiv ▸ div_pos hrem hpos
    have hright : (n : ℚ) / d - (n / d : ℕ) < 1 := hdiv ▸ (div_lt_one₀ hpos).mpr hlt
    rcases lt_trichotomy (2 * (n % d)) d with hhalf | hhalf | hhalf
    · rw [Nat.compare_eq_lt.mpr hhalf]
      refine ⟨hleft, ?_⟩
      change (n : ℚ) / d - (n / d : ℕ) < 1 / 2
      rw [hdiv, div_lt_div_iff₀ hpos two_pos]
      have : (2 : ℚ) * (n % d : ℕ) < d := by exact_mod_cast hhalf
      linarith
    · rw [Nat.compare_eq_eq.mpr hhalf]
      change (n : ℚ) / d - (n / d : ℕ) = 1 / 2
      rw [hdiv, div_eq_div_iff hpos.ne' two_ne_zero]
      have : (2 : ℚ) * (n % d : ℕ) = d := by exact_mod_cast hhalf
      linarith
    · rw [Nat.compare_eq_gt.mpr hhalf]
      refine ⟨?_, hright⟩
      change 1 / 2 < (n : ℚ) / d - (n / d : ℕ)
      rw [hdiv, div_lt_div_iff₀ two_pos hpos]
      have : (d : ℚ) < 2 * (n % d : ℕ) := by exact_mod_cast hhalf
      linarith

theorem div_rounded {s t : Sign} {m n : ℕ} {e f : ℤ} (hm : 0 < m) (hn : 0 < n) :
    ∃ r, RoundsTo (m * 2 ^ e / (n * 2 ^ f)) r ∧
      Rounded (s / t) r (UnpackedFloat.div .binary32 (.finite s m e hm) (.finite t n f hn)) := by
  unfold UnpackedFloat.div divCore
  dsimp only
  obtain ⟨g, hg⟩ : ∃ g, g = min (e - f)
      (Format.binary32.targetExponent (totalExponent m e - totalExponent n f)) := ⟨_, rfl⟩
  obtain ⟨k, hk⟩ : ∃ k, k = (e - f - g).toNat := ⟨_, rfl⟩
  rw [← hg, ← hk, Nat.shiftLeft_eq]
  have hgrid : (m : ℚ) * 2 ^ e / (n * 2 ^ f) / 2 ^ g = (m * 2 ^ k : ℕ) / n := by
    have hexp : (2 : ℚ) ^ e = 2 ^ k * (2 ^ f * 2 ^ g) := by
      rw [← zpow_add₀ two_ne_zero, ← zpow_natCast, ← zpow_add₀ two_ne_zero]
      congr 1
      omega
    have hf : (2 : ℚ) ^ f ≠ 0 := (zpow_pos two_pos f).ne'
    have hg : (2 : ℚ) ^ g ≠ 0 := (zpow_pos two_pos g).ne'
    have hn : (n : ℚ) ≠ 0 := by exact_mod_cast hn.ne'
    rw [hexp]
    push_cast
    field_simp
  apply roundWithAccuracy_rounded
  · rw [hgrid]
    exact standsFor_fraction _ hn
  · by_cases hleast : g ≤ -149
    · exact .inl hleast
    · have htarget : Format.binary32.targetExponent (totalExponent m e - totalExponent n f) =
          max ((m.log2 : ℤ) + 1 + e - (n.log2 + 1 + f) - 24) (-149) := rfl
      have hlow : 2 ^ m.log2 ≤ m := Nat.log2_self_le hm.ne'
      have hhigh : n ≤ 2 ^ (n.log2 + 1) := Nat.lt_log2_self.le
      refine .inr ((Nat.le_div_iff_mul_le hn).mpr ?_)
      calc 2 ^ 23 * n ≤ 2 ^ 23 * 2 ^ (n.log2 + 1) := Nat.mul_le_mul_left _ hhigh
        _ = 2 ^ (23 + (n.log2 + 1)) := (pow_add 2 _ _).symm
        _ ≤ 2 ^ (m.log2 + k) := Nat.pow_le_pow_right two_pos (by omega)
        _ = 2 ^ m.log2 * 2 ^ k := pow_add 2 _ _
        _ ≤ m * 2 ^ k := Nat.mul_le_mul_right _ hlow

/-- Not below zero, and not the negative zero. -/
def Unsigned : UnpackedFloat → Prop
  | .notANumber => True
  | .infinity s => s = .positive
  | .zero s => s = .positive
  | .finite s _ _ _ => s = .positive

theorem unsigned_unpack_packComponents (exponent : BitVec 8) (mantissa : BitVec 23) :
    Unsigned (unpack .binary32 (packComponents .binary32 .positive exponent mantissa)) := by
  unfold unpack
  simp only [unpackSign_packComponents, ofBitVec_toBitVec]
  split
  · split
    · rfl
    · trivial
  · split
    · split <;> rfl
    · rfl

theorem unsigned_repack {f : UnpackedFloat} (h : Unsigned f) : Unsigned (repack f) := by
  unfold repack pack
  cases f with
  | notANumber => exact unsigned_unpack_packComponents _ _
  | infinity s =>
      obtain rfl : s = .positive := h
      exact unsigned_unpack_packComponents _ _
  | zero s =>
      obtain rfl : s = .positive := h
      exact unsigned_unpack_packComponents _ _
  | finite s m e hm =>
      obtain rfl : s = .positive := h
      dsimp only
      split
      · exact unsigned_unpack_packComponents _ _
      · split <;> exact unsigned_unpack_packComponents _ _

theorem unsigned_roundWithAccuracy (m : ℕ) (e : ℤ) (acc : Accuracy) :
    Unsigned (roundWithAccuracy .binary32 .positive m e acc) := by
  unfold roundWithAccuracy
  dsimp only
  split <;> rfl

theorem unsigned_normalize {m : ℤ} (hm : 0 ≤ m) (e : ℤ) :
    Unsigned (normalize .binary32 m e .positive) := by
  unfold UnpackedFloat.normalize
  rcases hm.lt_or_eq with hlt | rfl
  · rw [Int.compare_eq_gt.mpr hlt]
    exact unsigned_roundWithAccuracy _ _ _
  · rw [Int.compare_eq_eq.mpr rfl]
    rfl

theorem unsigned_mul_self (f : UnpackedFloat) : Unsigned (UnpackedFloat.mul .binary32 f f) := by
  cases f with
  | notANumber => trivial
  | infinity s => cases s <;> rfl
  | zero s => cases s <;> rfl
  | finite s m e hm => cases s <;> exact unsigned_roundWithAccuracy _ _ _

theorem unsigned_add {f g : UnpackedFloat} (hf : Unsigned f) (hg : Unsigned g) :
    Unsigned (UnpackedFloat.add .binary32 f g) := by
  cases f with
  | notANumber => trivial
  | infinity s =>
      obtain rfl : s = .positive := hf
      cases g with
      | notANumber => trivial
      | infinity t =>
          obtain rfl : t = .positive := hg
          rfl
      | zero t => rfl
      | finite t n f hn => rfl
  | zero s =>
      obtain rfl : s = .positive := hf
      cases g with
      | notANumber => trivial
      | infinity t => exact hg
      | zero t =>
          obtain rfl : t = .positive := hg
          rfl
      | finite t n f hn => exact hg
  | finite s m e hm =>
      obtain rfl : s = .positive := hf
      cases g with
      | notANumber => trivial
      | infinity t => exact hg
      | zero t => rfl
      | finite t n f hn =>
          obtain rfl : t = .positive := hg
          exact unsigned_normalize (add_nonneg (Int.natCast_nonneg _) (Int.natCast_nonneg _)) _

def Root (f : UnpackedFloat) : Prop := Unsigned f ∨ f = .zero .negative

theorem root_sqrt (f : UnpackedFloat) : Root (repack (UnpackedFloat.sqrt .binary32 f)) := by
  cases f with
  | notANumber => exact .inl (unsigned_repack trivial)
  | infinity s =>
      cases s with
      | negative => exact .inl (unsigned_repack trivial)
      | positive => exact .inl (unsigned_repack rfl)
  | zero s =>
      cases s with
      | negative => exact .inr (by rfl)
      | positive => exact .inl (unsigned_repack rfl)
  | finite s m e hm =>
      cases s with
      | negative => exact .inl (unsigned_repack trivial)
      | positive => exact .inl (unsigned_repack (unsigned_roundWithAccuracy _ _ _))

/-- Finite values of the format come back as they are, so far as their place goes. -/
theorem place?_repack_finite {s : Sign} {m : ℕ} {e : ℤ} (hm : 0 < m)
    (h : Proper (.finite s m e hm)) :
    place? (repack (.finite s m e hm)) = some (s.apply (steps m e)) := by
  have hplace := place?_pack (Rounded.finite (s := s) hm h.1)
  rwa [min_eq_left (h.1.steps_lt_infinity h.2).le] at hplace

theorem finite_sum_le {s : Sign} {m n : ℕ} {e f : ℤ} (hm : 0 < m) (hn : 0 < n) {k l : ℤ}
    (hk : place? (repack (.sub .binary32 (.finite s m e hm) (.finite .positive n f hn))) = some k)
    (hl : place? (repack (.add .binary32 (.finite s m e hm) (.finite .positive n f hn))) = some l) :
    k ≤ l := by
  obtain ⟨k', hk', hlands⟩ := normalize_lands
    (s.apply (m <<< (e - min e f).toNat : ℕ) - (n <<< (f - min e f).toNat : ℕ)) (min e f) .positive
  obtain ⟨l', hl', hlands'⟩ := normalize_lands
    (s.apply (m <<< (e - min e f).toNat : ℕ) + (n <<< (f - min e f).toNat : ℕ)) (min e f) .positive
  obtain rfl : k' = k := Option.some.inj (hk'.symm.trans hk)
  obtain rfl : l' = l := Option.some.inj (hl'.symm.trans hl)
  have hshift : (0 : ℤ) ≤ (n <<< (f - min e f).toNat : ℕ) := Int.natCast_nonneg _
  refine hlands.mono hlands' (mul_le_mul_of_nonneg_right ?_ (zpow_pos two_pos _).le)
  exact Int.cast_le.mpr (by omega)

theorem Root.eq_cases {g : UnpackedFloat} (h : Root g) :
    g = .notANumber ∨ g = .infinity .positive ∨ (∃ t, g = .zero t) ∨
      ∃ n f hn, g = .finite .positive n f hn := by
  rcases h with h | rfl
  · cases g with
    | notANumber => exact .inl rfl
    | infinity t =>
        obtain rfl : t = .positive := h
        exact .inr (.inl rfl)
    | zero t => exact .inr (.inr (.inl ⟨t, rfl⟩))
    | finite t n f hn =>
        obtain rfl : t = .positive := h
        exact .inr (.inr (.inr ⟨n, f, hn, rfl⟩))
  · exact .inr (.inr (.inl ⟨.negative, rfl⟩))

theorem sub_le_add {f g : UnpackedFloat} (hg : Proper g) (hroot : Root g) {k l : ℤ}
    (hk : place? (repack (UnpackedFloat.sub .binary32 f g)) = some k)
    (hl : place? (repack (UnpackedFloat.add .binary32 f g)) = some l) : k ≤ l := by
  have hpos := infinitySteps_pos
  rcases hroot.eq_cases with rfl | rfl | ⟨t, rfl⟩ | ⟨n, e, hn, rfl⟩
  · cases f <;> exact (not_notANumber hk).elim
  · have hends (hk : place? (repack (.infinity .negative)) = some k)
        (hl : place? (repack (.infinity .positive)) = some l) : k ≤ l := by
      rw [eq_infinity_of_place hk, eq_infinity_of_place hl]
      simp only [Sign.apply]
      omega
    cases f with
    | notANumber => exact (not_notANumber hk).elim
    | infinity s =>
        cases s with
        | negative => exact (not_notANumber hl).elim
        | positive => exact (not_notANumber hk).elim
    | zero s => exact hends hk hl
    | finite s m e hm => exact hends hk hl
  · have hsame {h : UnpackedFloat} (hk : place? (repack h) = some k)
        (hl : place? (repack h) = some l) : k ≤ l :=
      (Option.some.inj (hk.symm.trans hl)).le
    cases f with
    | notANumber => exact (not_notANumber hk).elim
    | infinity s => exact hsame hk hl
    | zero s =>
        -- Sum and difference may be zeros of different signs, which are at one place.
        have hzero : k = 0 ∧ l = 0 := by
          cases s <;> cases t <;> exact ⟨eq_zero_of_place hk, eq_zero_of_place hl⟩
        omega
    | finite s m e hm => exact hsame hk hl
  · cases f with
    | notANumber => exact (not_notANumber hk).elim
    | infinity s => exact (Option.some.inj (hk.symm.trans hl)).le
    | zero s =>
        have hsub : place? (repack (.finite .negative n e hn)) = some k := hk
        have hadd : place? (repack (.finite .positive n e hn)) = some l := hl
        rw [place?_repack_finite hn (s := .negative) hg] at hsub
        rw [place?_repack_finite hn hg] at hadd
        have := hg.1.steps_pos hn
        cases hsub
        cases hadd
        simp only [Sign.apply]
        omega
    | finite s m e' hm => exact finite_sum_le hm hn hk hl

def rational? : UnpackedFloat → Option ℚ
  | .zero _ => some 0
  | .finite s m e _ => some (signed s (m * 2 ^ e))
  | _ => none

theorem Canonical.eq_of_steps_eq {m n : ℕ} {e f : ℤ} (hm : Canonical m e) (hn : Canonical n f)
    (h : steps m e = steps n f) : m = n ∧ e = f := by
  have hef : e = f := by
    rcases Int.lt_trichotomy e f with hlt | heq | hlt
    · have := hm.steps_lt_steps hn hlt
      omega
    · exact heq
    · have := hn.steps_lt_steps hm hlt
      omega
  unfold steps at h
  exact ⟨by omega, hef⟩

theorem Canonical.roundsTo {m : ℕ} {e : ℤ} (h : Canonical m e) :
    RoundsTo (m * 2 ^ e) (steps m e) := by
  have hpos : (0 : ℚ) < 2 ^ e := zpow_pos two_pos e
  refine ⟨e, m, h.least_le, h.leading.imp_left fun hm => ?_, ?_, ?_, rfl⟩
  · rw [add_comm, zpow_add₀ two_ne_zero]
    exact mul_le_mul_of_nonneg_right (by exact_mod_cast hm) hpos.le
  · rw [add_comm, zpow_add₀ two_ne_zero]
    exact mul_lt_mul_of_pos_right (by exact_mod_cast h.mantissa_lt) hpos
  · rw [mul_div_cancel_right₀ _ hpos.ne']
    exact_mod_cast NearestEven.of_int m

theorem Canonical.lands {m : ℕ} {e : ℤ} (h : Canonical m e) (he : e ≤ 104) :
    Lands (m * 2 ^ e) (steps m e) :=
  .inl ⟨by positivity, _, h.roundsTo, (min_eq_left (h.steps_lt_infinity he).le).symm⟩

theorem lands_rational {f : UnpackedFloat} (hf : Proper f) {x : ℚ} {k : ℤ}
    (hx : rational? f = some x) (hk : place? f = some k) :
    Lands x k ∧ -infinitySteps < k ∧ k < infinitySteps := by
  have hpos := infinitySteps_pos
  cases f with
  | notANumber => cases hx
  | infinity s => cases hx
  | zero s =>
      cases hx
      cases hk
      exact ⟨lands_zero, by omega, hpos⟩
  | finite s m e hm =>
      cases hx
      cases hk
      have hsteps := hf.1.steps_pos hm
      have htop := hf.1.steps_lt_infinity hf.2
      have hlands := Lands.of_roundsTo s (by positivity) hf.1.roundsTo
      rw [min_eq_left htop.le] at hlands
      refine ⟨hlands, ?_, ?_⟩ <;> cases s <;> simp only [Sign.apply] <;> omega

theorem rational_eq_of_place_eq {f g : UnpackedFloat} (hf : Proper f) (hg : Proper g) {x y : ℚ}
    {k : ℤ} (hx : rational? f = some x) (hy : rational? g = some y) (hk : place? f = some k)
    (hl : place? g = some k) : x = y := by
  cases f with
  | notANumber => cases hx
  | infinity s => cases hx
  | zero s =>
      cases hx
      cases hk
      cases g with
      | notANumber => cases hy
      | infinity t => cases hy
      | zero t => exact Option.some.inj hy
      | finite t n e hn =>
          have := hg.1.steps_pos hn
          have hzero := Option.some.inj hl
          cases t <;> simp only [Sign.apply] at hzero <;> omega
  | finite s m e hm =>
      have hpos := hf.1.steps_pos hm
      cases hx
      cases hk
      cases g with
      | notANumber => cases hy
      | infinity t => cases hy
      | zero t =>
          have hzero := Option.some.inj hl
          cases s <;> simp only [Sign.apply] at hzero <;> omega
      | finite t n f hn =>
          have hpos' := hg.1.steps_pos hn
          have heq := Option.some.inj hl
          have hst : s = t ∧ steps m e = steps n f := by
            cases s <;> cases t <;> simp only [Sign.apply] at heq
            · exact ⟨rfl, by omega⟩
            · omega
            · omega
            · exact ⟨rfl, heq.symm⟩
          obtain ⟨rfl, hsteps⟩ := hst
          obtain ⟨rfl, rfl⟩ := hf.1.eq_of_steps_eq hg.1 hsteps
          exact Option.some.inj hy

theorem rational_le_of_place_le {f g : UnpackedFloat} (hf : Proper f) (hg : Proper g) {x y : ℚ}
    {k l : ℤ} (hx : rational? f = some x) (hy : rational? g = some y) (hk : place? f = some k)
    (hl : place? g = some l) (hkl : k ≤ l) : x ≤ y := by
  by_contra hlt
  have hlk := (lands_rational hg hy hl).1.mono (lands_rational hf hx hk).1 (not_le.mp hlt).le
  obtain rfl : k = l := le_antisymm hkl hlk
  exact hlt (rational_eq_of_place_eq hf hg hx hy hk hl).le

theorem Lands.between {x : ℚ} {k : ℤ} (h : Lands x k) : -infinitySteps ≤ k ∧ k ≤ infinitySteps := by
  have hpos := infinitySteps_pos
  rcases h with ⟨hx, r, hr, rfl⟩ | ⟨hx, r, hr, rfl⟩
  · have := hr.nonneg hx
    omega
  · have := hr.nonneg (neg_nonneg.mpr hx)
    omega

theorem div_infinity_place {f : UnpackedFloat} {k : ℤ}
    (hk : place? (repack (.div .binary32 f (.infinity .positive))) = some k) : k = 0 := by
  cases f with
  | notANumber => exact (not_notANumber hk).elim
  | infinity s => exact (not_notANumber hk).elim
  | zero s => exact eq_zero_of_place hk
  | finite s m e hm => exact eq_zero_of_place hk

theorem div_zero_place {f : UnpackedFloat} (hf : Proper f) {i k : ℤ} (hi : place? f = some i)
    (hk : place? (repack (UnpackedFloat.div .binary32 f (.zero .positive))) = some k) :
    i < 0 ∧ k = -infinitySteps ∨ 0 < i ∧ k = infinitySteps := by
  cases f with
  | notANumber => exact (not_notANumber hk).elim
  | infinity s =>
      cases hi
      cases s with
      | negative => exact .inl ⟨by decide, eq_infinity_of_place hk⟩
      | positive => exact .inr ⟨by decide, eq_infinity_of_place hk⟩
  | zero s => exact (not_notANumber hk).elim
  | finite s m e hm =>
      have hpos := hf.1.steps_pos hm
      cases hi
      cases s with
      | negative => exact .inl ⟨by simp only [Sign.apply]; omega, eq_infinity_of_place hk⟩
      | positive => exact .inr ⟨hpos, eq_infinity_of_place hk⟩

theorem signed_div (s : Sign) (x y : ℚ) : signed s x / y = signed s (x / y) := by
  cases s
  · exact neg_div y x
  · rfl

theorem div_finite_place {f : UnpackedFloat} {n : ℕ} {e i k : ℤ} (hn : 0 < n)
    (hi : place? f = some i)
    (hk : place? (repack (UnpackedFloat.div .binary32 f (.finite .positive n e hn))) = some k) :
    (i = -infinitySteps ∧ k = -infinitySteps) ∨ (i = infinitySteps ∧ k = infinitySteps) ∨
      ∃ x, rational? f = some x ∧ Lands (x / (n * 2 ^ e)) k := by
  cases f with
  | notANumber => cases hi
  | infinity s =>
      cases hi
      cases s with
      | negative => exact .inl ⟨rfl, eq_infinity_of_place hk⟩
      | positive => exact .inr (.inl ⟨rfl, eq_infinity_of_place hk⟩)
  | zero s =>
      have hzero : k = 0 := eq_zero_of_place hk
      refine .inr (.inr ⟨0, rfl, ?_⟩)
      rw [zero_div, hzero]
      exact lands_zero
  | finite s m f hm =>
      obtain ⟨k', hk', hlands⟩ := lands_of_rounded (div_nonneg (by positivity) (by positivity))
        (div_rounded (s := s) (t := .positive) (e := f) (f := e) hm hn)
      obtain rfl : k' = k := Option.some.inj (hk'.symm.trans hk)
      refine .inr (.inr ⟨_, rfl, ?_⟩)
      have hs : s / .positive = s := by cases s <;> rfl
      rwa [signed_div, ← hs]

theorem exists_place_of_div {f a : UnpackedFloat} {k : ℤ}
    (hk : place? (repack (UnpackedFloat.div .binary32 f a)) = some k) : ∃ i, place? f = some i := by
  cases f with
  | notANumber => exact (not_notANumber hk).elim
  | infinity s => exact ⟨_, rfl⟩
  | zero s => exact ⟨_, rfl⟩
  | finite s m e hm => exact ⟨_, rfl⟩

theorem div_le_div {f g a : UnpackedFloat} (hf : Proper f) (hg : Proper g) (ha : Unsigned a)
    {i j k l : ℤ} (hi : place? f = some i) (hj : place? g = some j) (hij : i ≤ j)
    (hk : place? (repack (UnpackedFloat.div .binary32 f a)) = some k)
    (hl : place? (repack (UnpackedFloat.div .binary32 g a)) = some l) : k ≤ l := by
  have hpos := infinitySteps_pos
  cases a with
  | notANumber => cases f <;> exact (not_notANumber hk).elim
  | infinity s =>
      obtain rfl : s = .positive := ha
      rw [div_infinity_place hk, div_infinity_place hl]
  | zero s =>
      obtain rfl : s = .positive := ha
      have := div_zero_place hf hi hk
      have := div_zero_place hg hj hl
      omega
  | finite s n e hn =>
      obtain rfl : s = .positive := ha
      rcases div_finite_place hn hi hk with ⟨hi', rfl⟩ | ⟨hi', rfl⟩ | ⟨x, hx, hlands⟩ <;>
        rcases div_finite_place hn hj hl with ⟨hj', rfl⟩ | ⟨hj', rfl⟩ | ⟨y, hy, hlands'⟩
      · exact le_rfl
      · omega
      · exact hlands'.between.1
      · omega
      · exact le_rfl
      · have := (lands_rational hg hy hj).2
        omega
      · have := (lands_rational hf hx hi).2
        omega
      · exact hlands.between.2
      · have hxy := rational_le_of_place_le hf hg hx hy hi hj hij
        have hdivisor : (0 : ℚ) ≤ n * 2 ^ e := by positivity
        exact hlands.mono hlands' (div_le_div_of_nonneg_right hxy hdivisor)

theorem unsigned_lengthSquared (d : Vec3 Float32) : Unsigned d.lengthSquared.toModel.unpack :=
  unsigned_repack (unsigned_add
    (unsigned_repack (unsigned_add (unsigned_repack (unsigned_mul_self d.x.toModel.unpack))
      (unsigned_repack (unsigned_mul_self d.y.toModel.unpack))))
    (unsigned_repack (unsigned_mul_self d.z.toModel.unpack)))

theorem roots_ordered (h x : Float32) (d : Vec3 Float32) :
    ¬ (h + Scalar.sqrt x) / d.lengthSquared < (h - Scalar.sqrt x) / d.lengthSquared := by
  intro hlt
  obtain ⟨l, k, hl, hk, hlk⟩ := lt_iff.mp hlt
  obtain ⟨j, hj⟩ := exists_place_of_div hl
  obtain ⟨i, hi⟩ := exists_place_of_div hk
  have hij : i ≤ j := sub_le_add (proper_unpack (Scalar.sqrt x)) (root_sqrt x.toModel.unpack) hi hj
  have hkl := div_le_div (proper_unpack (h - Scalar.sqrt x)) (proper_unpack (h + Scalar.sqrt x))
    (unsigned_lengthSquared d) hi hj hij hk hl
  omega

instance : RootedScalar Float32 where
  roots_ordered := roots_ordered

end TileTracer.Binary32
