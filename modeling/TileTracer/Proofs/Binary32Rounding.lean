import Mathlib.Algebra.Ring.Parity
import Mathlib.Tactic.NormNum
import TileTracer.Proofs.Binary32Order
import TileTracer.Proofs.NearestEven

/-!
Arithmetic hands over a mantissa with two bits about what lies behind it. The rounding step ends at
the number of steps that rounding the exact result gives.
-/

namespace TileTracer.Binary32

open Float.Model (Format UnpackedFloat totalExponent)
open Float.Model.UnpackedFloat

/-- What the two extra bits of a mantissa say about the number that it stands for. -/
def StandsFor (em : ExtendedMantissa) (x : ℚ) : Prop :=
  match em.roundBit, em.stickyBit with
  | false, false => x - em.mantissa = 0
  | false, true => 0 < x - em.mantissa ∧ x - em.mantissa < 1 / 2
  | true, false => x - em.mantissa = 1 / 2
  | true, true => 1 / 2 < x - em.mantissa ∧ x - em.mantissa < 1

namespace StandsFor

variable {em : ExtendedMantissa} {x : ℚ}

theorem bounds (h : StandsFor em x) : (em.mantissa : ℚ) ≤ x ∧ x < em.mantissa + 1 := by
  rcases em with ⟨m, round, sticky⟩
  cases round <;> cases sticky <;> simp only [StandsFor] at h <;> constructor <;> linarith

theorem nearestEven (h : StandsFor em x) : NearestEven x em.roundedMantissa := by
  rcases em with ⟨m, _ | _, _ | _⟩
  · change x - m = 0 at h
    change NearestEven x ((m : ℕ) : ℤ)
    rw [sub_eq_zero.mp h]
    exact .of_int m
  · change 0 < x - m ∧ x - m < 1 / 2 at h
    change NearestEven x ((m : ℕ) : ℤ)
    exact .inl (abs_lt.mpr ⟨by push_cast; linarith, by push_cast; linarith⟩)
  · change x - m = 1 / 2 at h
    change NearestEven x ((m + m % 2 : ℕ) : ℤ)
    rcases Nat.mod_two_eq_zero_or_one m with hm | hm <;> rw [hm]
    · refine .inr ⟨?_, by exact_mod_cast Nat.even_iff.mpr hm⟩
      push_cast
      rw [add_zero, h, abs_of_pos (by norm_num)]
    · refine .inr ⟨?_, by exact_mod_cast Nat.even_iff.mpr (by omega)⟩
      push_cast
      rw [abs_of_neg (by linarith)]
      linarith
  · change 1 / 2 < x - m ∧ x - m < 1 at h
    change NearestEven x ((m + 1 : ℕ) : ℤ)
    exact .inl (abs_lt.mpr ⟨by push_cast; linarith, by push_cast; linarith⟩)

theorem shiftRightOne (h : StandsFor em x) : StandsFor em.shiftRightOne (x / 2) := by
  rcases em with ⟨m, round, sticky⟩
  have hm : (m : ℚ) = 2 * (m / 2 : ℕ) + (m % 2 : ℕ) := by
    exact_mod_cast (Nat.div_add_mod m 2).symm
  rcases Nat.mod_two_eq_zero_or_one m with hbit | hbit <;> rw [hbit] at hm <;> push_cast at hm <;>
    cases round <;> cases sticky <;>
    simp [StandsFor, ExtendedMantissa.shiftRightOne, hbit] at h ⊢
  all_goals try constructor
  all_goals linarith

theorem shiftRight (h : StandsFor em x) (k : ℕ) : StandsFor (em >>> k) (x / 2 ^ k) := by
  change StandsFor (k.repeat ExtendedMantissa.shiftRightOne em) (x / 2 ^ k)
  induction k with
  | zero => simpa [Nat.repeat] using h
  | succ k ih =>
      rw [pow_succ, ← div_div]
      exact ih.shiftRightOne

end StandsFor

/-- The outcome of a rounding step, infinity aside: a number of steps from zero on one side. -/
inductive Rounded (s : Sign) : ℤ → UnpackedFloat → Prop
  | zero : Rounded s 0 (.zero s)
  | finite {m : ℕ} {e : ℤ} (hm : 0 < m) (h : Canonical m e) :
      Rounded s (steps m e) (.finite s m e hm)

theorem targetExponent_eq (m : ℕ) (e : ℤ) :
    Format.binary32.targetExponent (totalExponent m e) = max (m.log2 + 1 + e - 24) (-149) := rfl

theorem shiftToExponent_eq {m : ℕ} {e t : ℤ} (acc : Accuracy) (h : e ≤ t) :
    shiftToExponent m e acc t =
      (ExtendedMantissa.ofMantissaAndAccuracy m acc >>> (t - e).toNat, t) := by
  have hend : e + ((t - e).toNat : ℤ) = t := by omega
  unfold shiftToExponent
  dsimp only
  rw [hend]

/-- Rounding may carry into one bit more than a mantissa has; the exponent then grows by one. -/
theorem settle_rounded (s : Sign) {n : ℕ} {t : ℤ} (hn : n ≤ 2 ^ 24) (ht : -149 ≤ t)
    (hleading : 2 ^ 23 ≤ n ∨ t = -149) :
    Rounded s (steps n t)
      (if h : (shiftToTargetExponent .binary32 n t .exact).1.mantissa = 0 then .zero s
      else .finite s (shiftToTargetExponent .binary32 n t .exact).1.mantissa
        (shiftToTargetExponent .binary32 n t .exact).2 (Nat.pos_of_ne_zero h)) := by
  rcases hn.lt_or_eq with hlt | rfl
  · have hlog : n.log2 < 24 := by
      rcases Nat.eq_zero_or_pos n with rfl | hpos
      · decide
      · exact (Nat.log2_lt hpos.ne').mpr hlt
    have hshift : shiftToTargetExponent .binary32 n t .exact = (⟨n, false, false⟩, t) := by
      have hamount : (max ((n.log2 : ℤ) + 1 + t - 24) (-149) - t).toNat = 0 := by omega
      unfold shiftToTargetExponent shiftToExponent
      dsimp only
      rw [targetExponent_eq, hamount]
      exact Prod.ext rfl (add_zero t)
    simp only [hshift]
    split
    · next hzero =>
      have hsteps : steps n t = 0 := by
        unfold steps
        omega
      exact hsteps ▸ .zero
    · next hpos => exact .finite _ ⟨hlt, ht, hleading⟩
  · have hshift : shiftToTargetExponent .binary32 (2 ^ 24) t .exact =
        (⟨2 ^ 23, false, false⟩, t + 1) := by
      have htarget : max (((2 ^ 24 : ℕ).log2 : ℤ) + 1 + t - 24) (-149) = t + 1 := by
        rw [Nat.log2_two_pow]
        omega
      unfold shiftToTargetExponent
      rw [targetExponent_eq, htarget, shiftToExponent_eq _ (by omega), add_sub_cancel_left]
      rfl
    simp only [hshift]
    have hsteps : steps (2 ^ 24) t = steps (2 ^ 23) (t + 1) := by
      unfold steps
      omega
    rw [hsteps]
    exact .finite _ ⟨by decide, by omega, .inl le_rfl⟩

theorem lt_two_zpow_of_lt {m : ℕ} {e t : ℤ} {x : ℚ} (hx : x < (m + 1) * 2 ^ e)
    (ht : (m.log2 : ℤ) + 1 + e ≤ t) : x < 2 ^ t := by
  have hpow : ((m : ℚ) + 1) ≤ 2 ^ (m.log2 + 1) := by
    exact_mod_cast Nat.lt_log2_self
  calc x < (m + 1) * 2 ^ e := hx
    _ ≤ 2 ^ (m.log2 + 1) * 2 ^ e := by
        exact mul_le_mul_of_nonneg_right hpow (zpow_pos two_pos e).le
    _ = 2 ^ ((m.log2 + 1 : ℕ) + e) := by rw [zpow_add₀ two_ne_zero, zpow_natCast]
    _ ≤ 2 ^ t := zpow_le_zpow_right₀ one_le_two (by omega)

theorem two_zpow_le_of_le {m : ℕ} {e t : ℤ} {x : ℚ} (hm : m ≠ 0) (hx : m * 2 ^ e ≤ x)
    (ht : t ≤ m.log2 + e) : 2 ^ t ≤ x := by
  have hpow : (2 : ℚ) ^ m.log2 ≤ m := by exact_mod_cast Nat.log2_self_le hm
  calc (2 : ℚ) ^ t ≤ 2 ^ ((m.log2 : ℕ) + e) := zpow_le_zpow_right₀ one_le_two ht
    _ = 2 ^ m.log2 * 2 ^ e := by rw [zpow_add₀ two_ne_zero, zpow_natCast]
    _ ≤ m * 2 ^ e := mul_le_mul_of_nonneg_right hpow (zpow_pos two_pos e).le
    _ ≤ x := hx

theorem roundWithAccuracy_rounded (s : Sign) {m : ℕ} {e : ℤ} {acc : Accuracy} {x : ℚ}
    (hx : StandsFor (.ofMantissaAndAccuracy m acc) (x / 2 ^ e)) (hlong : e ≤ -149 ∨ 2 ^ 23 ≤ m) :
    ∃ r, RoundsTo x r ∧ Rounded s r (roundWithAccuracy .binary32 s m e acc) := by
  have hbounds : (m : ℚ) ≤ x / 2 ^ e ∧ x / 2 ^ e < m + 1 := by
    have h := hx.bounds
    rcases acc with _ | _ | _ | _ <;> exact h
  rw [le_div_iff₀ (zpow_pos two_pos e), div_lt_iff₀ (zpow_pos two_pos e)] at hbounds
  -- `t` is the exponent of the grid for numbers of this size.
  obtain ⟨t, ht⟩ : ∃ t, t = max ((m.log2 : ℤ) + 1 + e - 24) (-149) := ⟨_, rfl⟩
  have hlog : 2 ^ 23 ≤ m → 23 ≤ m.log2 := fun h =>
    (Nat.le_log2 (by omega)).mpr h
  have het : e ≤ t := by omega
  have hhigh : x < 2 ^ (t + 24) := lt_two_zpow_of_lt hbounds.2 (by omega)
  have hlow : 2 ^ (t + 23) ≤ x ∨ t = -149 := by
    by_cases hleast : t = -149
    · exact .inr hleast
    · have hpos : m ≠ 0 := by
        rintro rfl
        simp only [Nat.log2_zero] at ht
        omega
      exact .inl (two_zpow_le_of_le hpos hbounds.1 (by omega))
  have hshifted : StandsFor (ExtendedMantissa.ofMantissaAndAccuracy m acc >>> (t - e).toNat)
      (x / 2 ^ t) := by
    have hgrid : x / 2 ^ t = x / 2 ^ e / 2 ^ (t - e).toNat := by
      rw [div_div, ← zpow_natCast, ← zpow_add₀ two_ne_zero, Int.toNat_of_nonneg (by omega),
        add_sub_cancel]
    rw [hgrid]
    exact hx.shiftRight _
  have hn := hshifted.nearestEven
  have hfirst : shiftToTargetExponent .binary32 m e acc =
      (ExtendedMantissa.ofMantissaAndAccuracy m acc >>> (t - e).toNat, t) := by
    unfold shiftToTargetExponent
    rw [targetExponent_eq, ← ht, shiftToExponent_eq acc het]
  generalize ExtendedMantissa.ofMantissaAndAccuracy m acc >>> (t - e).toNat = em at hn hfirst
  refine ⟨steps em.roundedMantissa t, ⟨t, em.roundedMantissa, by omega, hlow, hhigh, hn, rfl⟩, ?_⟩
  have hupper : em.roundedMantissa ≤ 2 ^ 24 := by
    have h : ((em.roundedMantissa : ℕ) : ℤ) ≤ 2 ^ 24 :=
      hn.le_of_le (by exact_mod_cast (RoundsTo.div_two_zpow_lt 24 hhigh).le)
    exact_mod_cast h
  have hleading : 2 ^ 23 ≤ em.roundedMantissa ∨ t = -149 := by
    refine hlow.imp_left fun hlow => ?_
    have h : (2 : ℤ) ^ 23 ≤ (em.roundedMantissa : ℕ) :=
      hn.ge_of_ge (by exact_mod_cast RoundsTo.le_div_two_zpow 23 hlow)
    exact_mod_cast h
  unfold roundWithAccuracy
  rw [hfirst]
  exact settle_rounded s hupper (by omega) hleading

theorem ofBitVec_toBitVec (s : Sign) : Sign.ofBitVec s.toBitVec = s := by
  cases s <;> rfl

theorem unpackSign_packComponents (s : Sign) (exponent : BitVec 8) (mantissa : BitVec 23) :
    unpackSign (packComponents .binary32 s exponent mantissa) = s.toBitVec := by
  apply BitVec.eq_of_getLsbD_eq
  intro i hi
  obtain rfl : i = 0 := by omega
  simp only [unpackSign, packComponents, BitVec.getLsbD_cast, BitVec.getLsbD_extractLsb]
  rw [BitVec.getLsbD_append, BitVec.getLsbD_append]
  simp

theorem place?_unpack_packComponents (s : Sign) {exponent : BitVec 8} {mantissa : BitVec 23}
    (h : exponent.toNat = 255 → mantissa.toNat = 0) :
    place? (unpack .binary32 (packComponents .binary32 s exponent mantissa)) =
      some (s.apply (exponent.toNat * 2 ^ 23 + mantissa.toNat)) := by
  have hmantissa : mantissa.toNat < 2 ^ 23 := mantissa.isLt
  have hbias : Format.binary32.exponentBias = 127 := rfl
  unfold unpack
  simp only [unpackMantissa_packComponents, unpackExponent_packComponents,
    unpackSign_packComponents, ofBitVec_toBitVec, hbias]
  split
  · next hinf =>
    have hmax : exponent.toNat = 255 := by rw [hinf]; rfl
    have hzero : mantissa = 0#_ := BitVec.eq_of_toNat_eq ((h hmax).trans rfl)
    rw [if_pos hzero, place?, hmax, h hmax]
    rfl
  · split
    · next hzero =>
      have hexponent : exponent.toNat = 0 := by rw [hzero]; rfl
      split
      · next hmantissa =>
        have hsteps : (exponent.toNat : Int) * 2 ^ 23 + mantissa.toNat = 0 := by
          rw [hexponent, hmantissa]
          rfl
        rw [hsteps]
        cases s <;> rfl
      · rw [place?]
        refine congrArg (fun n => some (s.apply n)) ?_
        unfold steps
        omega
    · next hzero =>
      have hleading : (1#1 ++ mantissa).toNat = 2 ^ 23 + mantissa.toNat := by
        rw [BitVec.toNat_append, ← Nat.shiftLeft_add_eq_or_of_lt hmantissa]
        rfl
      rw [place?]
      refine congrArg (fun n => some (s.apply n)) ?_
      unfold steps
      omega

theorem place?_pack {s : Sign} {r : ℤ} {f : UnpackedFloat} (h : Rounded s r f) :
    place? (unpack .binary32 (pack .binary32 f)) = some (s.apply (min r infinitySteps)) := by
  cases h with
  | zero => exact place?_unpack_packComponents s (by decide)
  | @finite m e hm hc =>
      have hlt := hc.mantissa_lt
      have hleast := hc.least_le
      have hbiased : e + (Format.binary32.exponentBias : ℕ) +
          (Format.binary32.mantissaBitsWithoutImplicit : ℕ) = e + 150 := by
        change e + (127 : ℕ) + (23 : ℕ) = e + 150
        omega
      unfold pack
      dsimp only
      rw [hbiased]
      split
      · next htop =>
        -- The exponent does not fit its field, and the value is packed as infinity.
        have hmin : min (steps m e) infinitySteps = infinitySteps := by
          have := hc.leading
          change 2 ^ 8 ≤ _ at htop
          unfold steps infinitySteps
          omega
        rw [hmin]
        exact place?_unpack_packComponents s (by decide)
      · next htop =>
        change ¬ 2 ^ 8 ≤ _ at htop
        have hmin : min (steps m e) infinitySteps = steps m e :=
          min_eq_left (hc.steps_lt_infinity (by omega)).le
        rw [hmin]
        split
        · next hnormal =>
          change m.log2 + 1 = 24 at hnormal
          -- The leading bit is not stored, and the exponent field counts it.
          have hleading : 2 ^ 23 ≤ m := (Nat.le_log2 hm.ne').mp (by omega)
          have hexponent : (BitVec.ofNat 8 (e + 150).toNat).toNat = (e + 150).toNat := by
            rw [BitVec.toNat_ofNat, Nat.mod_eq_of_lt (by omega)]
          have hmantissa : (BitVec.ofNat 23 m).toNat = m - 2 ^ 23 := by
            rw [BitVec.toNat_ofNat]
            omega
          refine (place?_unpack_packComponents s ?_).trans ?_
          · rw [hexponent]
            omega
          · refine congrArg (fun n => some (s.apply n)) ?_
            rw [hexponent, hmantissa]
            unfold steps
            omega
        · next hnormal =>
          change ¬ m.log2 + 1 = 24 at hnormal
          -- A mantissa without its leading bit has the least exponent, whose field is zero.
          have hshort : m < 2 ^ 23 := by
            by_contra h
            have := (Nat.le_log2 hm.ne').mpr (not_lt.mp h)
            have := (Nat.log2_lt hm.ne').mpr hlt
            omega
          have hmantissa : (BitVec.ofNat 23 m).toNat = m := by
            rw [BitVec.toNat_ofNat, Nat.mod_eq_of_lt hshort]
          refine (place?_unpack_packComponents s ?_).trans ?_
          · exact fun h => absurd h (by decide)
          · refine congrArg (fun n => some (s.apply n)) ?_
            rw [hmantissa, hc.leading.resolve_left (by omega)]
            simp [steps]

end TileTracer.Binary32
