import Mathlib.Data.Nat.Prime.Basic
import TileTracer.Proofs.Binary32Naturals

/-!
The reciprocal of a natural number is rounded, and so is the product of the two. It comes to 1, or
to the value just below 1; which of the two, a remainder tells.
-/

namespace TileTracer.Binary32

variable {x : Float32}

theorem exists_canonical_eq {m : ℕ} {e : ℤ} (he : -149 ≤ e) (hlow : 2 ^ 23 ≤ m) (hm : m ≤ 2 ^ 24) :
    ∃ n f, Canonical n f ∧ f ≤ e + 1 ∧ steps n f = steps m e ∧ (n : ℚ) * 2 ^ f = m * 2 ^ e := by
  rcases hm.lt_or_eq with hlt | rfl
  · exact ⟨m, e, ⟨hlt, he, .inl hlow⟩, by omega, rfl, rfl⟩
  · refine ⟨2 ^ 23, e + 1, ⟨by decide, by omega, .inl le_rfl⟩, le_rfl, ?_, ?_⟩
    · unfold steps
      omega
    · rw [zpow_add_one₀ two_ne_zero]
      push_cast
      ring

/-- Rounding goes to the point of the grid that is found nearest. -/
theorem exists_roundsTo {q : ℚ} {e : ℤ} {m : ℕ} (he : -149 ≤ e) (hlow : 2 ^ (e + 23) ≤ q)
    (hhigh : q ≤ 2 ^ (e + 24)) (hm : NearestEven (q / 2 ^ e) m) :
    ∃ n f, Canonical n f ∧ f ≤ e + 1 ∧ RoundsTo q (steps n f) ∧ (n : ℚ) * 2 ^ f = m * 2 ^ e := by
  have hpos : (0 : ℚ) < 2 ^ e := zpow_pos two_pos e
  have hend : (2 : ℚ) ^ (e + 24) = ((2 ^ 24 : ℤ) : ℚ) * 2 ^ e := by
    rw [zpow_add₀ two_ne_zero, mul_comm]
    norm_cast
  have hupper : (m : ℤ) ≤ 2 ^ 24 := hm.le_of_le ((div_le_iff₀ hpos).mpr (hhigh.trans_eq hend))
  have hlower : 2 ^ 23 ≤ (m : ℤ) :=
    hm.ge_of_ge (by exact_mod_cast RoundsTo.le_div_two_zpow 23 hlow)
  obtain ⟨n, f, hc, hf, hsteps, hvalue⟩ :=
    exists_canonical_eq he (by exact_mod_cast hlower) (by exact_mod_cast hupper)
  refine ⟨n, f, hc, hf, ?_, hvalue⟩
  rcases hhigh.lt_or_eq with hlt | heq
  · exact ⟨e, m, he, .inl hlow, hlt, hm, hsteps⟩
  · -- The upper end of the grid belongs to the next one, as its lowest point.
    have hge : (2 : ℤ) ^ 24 ≤ m :=
      hm.ge_of_ge ((le_div_iff₀ hpos).mpr (hend.symm.trans heq.symm).le)
    have htop : ((2 ^ 24 : ℤ) : ℚ) = m := by exact_mod_cast le_antisymm hge hupper
    rw [heq, hend, htop, ← hvalue]
    exact hc.roundsTo

theorem value?_of_roundsTo {q : ℚ} {k f : ℤ} {n : ℕ} (hk : rank? x = some k) (h : Lands q k)
    (hq : 0 ≤ q) (hc : Canonical n f) (hf : f ≤ 104) (hrounds : RoundsTo q (steps n f)) :
    value? x = some ((n : ℚ) * 2 ^ f) := by
  have hlands : Lands q (steps n f) :=
    .inl ⟨hq, _, hrounds, (min_eq_left (hc.steps_lt_infinity hf).le).symm⟩
  refine hc.value?_eq hf hk ?_
  rw [le_antisymm (h.mono hlands le_rfl) (hlands.mono h le_rfl)]
  exact hc.lands hf

theorem value?_of_nearest {q : ℚ} {k e : ℤ} {m : ℕ} (hk : rank? x = some k) (h : Lands q k)
    (he : -149 ≤ e) (he' : e ≤ 103) (hlow : 2 ^ (e + 23) ≤ q) (hhigh : q ≤ 2 ^ (e + 24))
    (hm : NearestEven (q / 2 ^ e) m) : value? x = some ((m : ℚ) * 2 ^ e) := by
  obtain ⟨n, f, hc, hf, hrounds, hvalue⟩ := exists_roundsTo he hlow hhigh hm
  rw [← hvalue]
  exact value?_of_roundsTo hk h ((zpow_pos two_pos _).le.trans hlow) hc (by omega) hrounds

/-! ## Next to 1 -/

section

variable {p : ℚ} {k : ℤ}

theorem value?_of_near_above (hk : rank? x = some k) (h : Lands p k) (hlow : 1 ≤ p)
    (hhigh : p < 1 + 1 / 2 ^ 24) : value? x = some 1 := by
  have hm : NearestEven (p / 2 ^ (-23 : ℤ)) ((2 ^ 23 : ℕ) : ℤ) := by
    refine .inl (abs_lt.mpr ⟨?_, ?_⟩) <;> norm_num at hhigh ⊢ <;> linarith
  rw [value?_of_nearest hk h (by decide) (by decide) (by norm_num; exact hlow)
    (by norm_num at hhigh ⊢; linarith) hm]
  norm_num

theorem value?_of_near_below (hk : rank? x = some k) (h : Lands p k) (hlow : 1 - 1 / 2 ^ 25 ≤ p)
    (hhigh : p ≤ 1) : value? x = some 1 := by
  have hle : |p / 2 ^ (-24 : ℤ) - ((2 ^ 24 : ℕ) : ℤ)| ≤ 1 / 2 := by
    refine abs_le.mpr ⟨?_, ?_⟩ <;> norm_num at hlow hhigh ⊢ <;> linarith
  have hm : NearestEven (p / 2 ^ (-24 : ℤ)) ((2 ^ 24 : ℕ) : ℤ) :=
    hle.lt_or_eq.imp_right fun htie => ⟨htie, by decide⟩
  rw [value?_of_nearest hk h (by decide) (by decide) (by norm_num at hlow ⊢; linarith)
    (by norm_num; exact hhigh) hm]
  norm_num

theorem value?_of_below (hk : rank? x = some k) (h : Lands p k) (hlow : 1 - 3 / 2 ^ 25 < p)
    (hhigh : p < 1 - 1 / 2 ^ 25) : value? x = some (1 - 1 / 2 ^ 24) := by
  have hm : NearestEven (p / 2 ^ (-24 : ℤ)) ((2 ^ 24 - 1 : ℕ) : ℤ) := by
    refine .inl (abs_lt.mpr ⟨?_, ?_⟩) <;> norm_num at hlow hhigh ⊢ <;> linarith
  rw [value?_of_nearest hk h (by decide) (by decide) (by norm_num at hlow ⊢; linarith)
    (by norm_num at hhigh ⊢; linarith) hm]
  norm_num

end

/-! ## Reciprocals -/

/-- The natural number nearest to a quotient, the lower one of two equally near. -/
def nearestQuotient (a n : ℕ) : ℕ := if n < 2 * (a % n) then a / n + 1 else a / n

theorem abs_sub_nearestQuotient_lt {a n : ℕ} (hn : 0 < n) (hhalf : 2 * (a % n) ≠ n) :
    |(a : ℚ) / n - nearestQuotient a n| < 1 / 2 := by
  have hpos : (0 : ℚ) < n := by exact_mod_cast hn
  have hsplit : (a : ℚ) / n = (a / n : ℕ) + ((a % n : ℕ) : ℚ) / n := by
    rw [div_eq_iff hpos.ne', add_mul, div_mul_cancel₀ _ hpos.ne', mul_comm]
    exact_mod_cast (Nat.div_add_mod a n).symm
  have hlow : (0 : ℚ) ≤ ((a % n : ℕ) : ℚ) / n := by positivity
  have hhigh : ((a % n : ℕ) : ℚ) / n < 1 :=
    (div_lt_one hpos).mpr (by exact_mod_cast Nat.mod_lt a hn)
  rw [hsplit]
  unfold nearestQuotient
  split
  · next hup =>
    have hup : 1 / 2 < ((a % n : ℕ) : ℚ) / n :=
      (div_lt_div_iff₀ two_pos hpos).mpr (by rw [one_mul, mul_comm]; exact_mod_cast hup)
    rw [Nat.cast_add_one]
    exact abs_lt.mpr ⟨by linarith, by linarith⟩
  · next hdown =>
    have hdown : 2 * (a % n) < n := lt_of_le_of_ne (not_lt.mp hdown) hhalf
    have hdown : ((a % n : ℕ) : ℚ) / n < 1 / 2 :=
      (div_lt_div_iff₀ hpos two_pos).mpr (by rw [one_mul, mul_comm]; exact_mod_cast hdown)
    exact abs_lt.mpr ⟨by linarith, by linarith⟩

/-- As many units of the last place as a reciprocal of `n` is counted in make up 1. -/
def unitsToOne (n : ℕ) : ℕ := 2 ^ (n.log2 + 24)

/-- What is left of them after division by `n`. -/
def leftOver (n : ℕ) : ℕ := unitsToOne n % n

/-- The number times its rounded reciprocal comes to 1: the reciprocal was rounded up, or what
rounding it down took is too little to be seen. -/
def Recovers (n : ℕ) : Prop := 2 * leftOver n ≤ 2 ^ n.log2 ∨ n < 2 * leftOver n

instance : DecidablePred Recovers := fun _ => inferInstanceAs (Decidable (_ ∨ _))

section

variable {n : ℕ}

theorem unitsToOne_pos (n : ℕ) : (0 : ℚ) < unitsToOne n := by
  exact_mod_cast Nat.two_pow_pos _

theorem unitsToOne_eq (n : ℕ) : (unitsToOne n : ℚ) = 2 ^ n.log2 * 2 ^ 24 := by
  unfold unitsToOne
  rw [Nat.cast_pow, pow_add]
  rfl

theorem lt_two_mul_two_pow_log2 (n : ℕ) : n < 2 * 2 ^ n.log2 := by
  rw [← pow_succ']
  exact Nat.lt_log2_self

theorem mul_quotient_add_leftOver (n : ℕ) :
    (n : ℚ) * (unitsToOne n / n : ℕ) + leftOver n = unitsToOne n := by
  exact_mod_cast Nat.div_add_mod (unitsToOne n) n

/-- A half would be left over for powers of two only, and these leave nothing. -/
theorem leftOver_ne_half (hn : 0 < n) : 2 * leftOver n ≠ n := by
  intro hhalf
  have hsplit : n * (unitsToOne n / n) + leftOver n = unitsToOne n := Nat.div_add_mod _ _
  have hdouble : 2 ^ (n.log2 + 25) = n * (2 * (unitsToOne n / n) + 1) := by
    calc 2 ^ (n.log2 + 25) = 2 * unitsToOne n := by rw [unitsToOne, ← pow_succ']
      _ = n * (2 * (unitsToOne n / n)) + 2 * leftOver n := by
          rw [mul_left_comm, ← mul_add, hsplit]
      _ = n * (2 * (unitsToOne n / n) + 1) := by rw [hhalf, mul_add, mul_one]
  obtain ⟨j, -, hj⟩ := (Nat.dvd_prime_pow Nat.prime_two).mp (Dvd.intro _ hdouble.symm)
  have hlog : n.log2 = j := by rw [hj, Nat.log2_two_pow]
  have hdvd : n ∣ unitsToOne n := by
    rw [unitsToOne, hlog, hj]
    exact pow_dvd_pow 2 (Nat.le_add_right _ _)
  have hzero : leftOver n = 0 := by
    unfold leftOver
    exact Nat.mod_eq_zero_of_dvd hdvd
  omega

theorem two_zpow_neg_log (n : ℕ) (j : ℤ) :
    (2 : ℚ) ^ (-(n.log2 + 24 : ℕ) + j) = 2 ^ j / unitsToOne n := by
  rw [zpow_add₀ two_ne_zero, zpow_neg, zpow_natCast, ← div_eq_inv_mul]
  unfold unitsToOne
  rw [Nat.cast_pow]
  rfl

theorem value?_reciprocal (hpos : 0 < n) (hn : n < 2 ^ 24) :
    value? (1.0 / ofNat n) = some ((nearestQuotient (unitsToOne n) n : ℚ) / unitsToOne n) := by
  have hcast : (0 : ℚ) < n := by exact_mod_cast hpos
  obtain ⟨k, hk, hlands⟩ := reciprocal_lands (value?_ofNat hn) hcast
  have hlog : n.log2 < 24 := (Nat.log2_lt hpos.ne').mpr hn
  have hlow : (2 : ℚ) ^ n.log2 ≤ n := by exact_mod_cast Nat.log2_self_le hpos.ne'
  have hhigh : (n : ℚ) ≤ 2 * 2 ^ n.log2 := by exact_mod_cast (lt_two_mul_two_pow_log2 n).le
  have hunit := two_zpow_neg_log n 0
  rw [add_zero, zpow_zero] at hunit
  have hm : NearestEven (1 / n / 2 ^ (-(n.log2 + 24 : ℕ) : ℤ))
      (nearestQuotient (unitsToOne n) n : ℕ) := by
    refine .inl ?_
    rw [hunit, div_div_div_eq, one_mul, mul_one]
    exact_mod_cast abs_sub_nearestQuotient_lt hpos (leftOver_ne_half hpos)
  have hvalue := value?_of_nearest hk hlands (by omega) (by omega) ?_ ?_ hm
  · rw [hvalue, hunit, mul_one_div]
  · rw [two_zpow_neg_log, unitsToOne_eq, div_le_div_iff₀ (by positivity) hcast]
    calc (2 : ℚ) ^ (23 : ℤ) * n ≤ 2 ^ (23 : ℤ) * (2 * 2 ^ n.log2) := by gcongr
      _ = 1 * (2 ^ n.log2 * 2 ^ 24) := by ring
  · rw [two_zpow_neg_log, unitsToOne_eq, div_le_div_iff₀ hcast (by positivity)]
    calc 1 * (2 ^ n.log2 * 2 ^ 24) ≤ 1 * ((n : ℚ) * 2 ^ 24) := by gcongr
      _ = (2 : ℚ) ^ (24 : ℤ) * n := by ring

def leftShare (n : ℕ) : ℚ := leftOver n / unitsToOne n

theorem leftShare_nonneg (n : ℕ) : 0 ≤ leftShare n := by
  unfold leftShare
  positivity

theorem leftShare_le_iff {b : ℕ} : leftShare n ≤ b / 2 ^ 25 ↔ 2 * leftOver n ≤ b * 2 ^ n.log2 := by
  unfold leftShare
  rw [unitsToOne_eq, div_le_div_iff₀ (by positivity) (by positivity)]
  constructor <;> intro h
  · have hcast : 2 * (leftOver n : ℚ) ≤ b * 2 ^ n.log2 := by linarith
    exact_mod_cast hcast
  · have hcast : 2 * (leftOver n : ℚ) ≤ b * 2 ^ n.log2 := by exact_mod_cast h
    linarith

theorem product_of_down (hdown : 2 * leftOver n ≤ n) :
    (n : ℚ) * nearestQuotient (unitsToOne n) n / unitsToOne n = 1 - leftShare n := by
  unfold nearestQuotient leftShare
  rw [if_neg (show ¬ n < 2 * (unitsToOne n % n) from not_lt.mpr hdown), eq_sub_iff_add_eq,
    ← add_div, mul_quotient_add_leftOver, div_self (unitsToOne_pos n).ne']

theorem product_of_up (hup : n < 2 * leftOver n) :
    (n : ℚ) * nearestQuotient (unitsToOne n) n / unitsToOne n =
      1 + (n - leftOver n) / unitsToOne n := by
  unfold nearestQuotient
  rw [if_pos (show n < 2 * (unitsToOne n % n) from hup), ← div_self (unitsToOne_pos n).ne',
    ← add_div, ← mul_quotient_add_leftOver, Nat.cast_add_one]
  congr 1
  ring

section

variable {k : ℤ} (hk : rank? x = some k)
  (h : Lands ((n : ℚ) * nearestQuotient (unitsToOne n) n / unitsToOne n) k)

include hk h

theorem value?_of_up (hpos : 0 < n) (hup : n < 2 * leftOver n) : value? x = some 1 := by
  have hleft : leftOver n < n := Nat.mod_lt _ hpos
  have hsize := lt_two_mul_two_pow_log2 n
  have hover : (n : ℚ) - leftOver n < 2 ^ n.log2 := by
    have hlt : n < 2 ^ n.log2 + leftOver n := by omega
    have hlt : (n : ℚ) < 2 ^ n.log2 + leftOver n := by exact_mod_cast hlt
    linarith
  rw [product_of_up hup] at h
  refine value?_of_near_above hk h (le_add_of_nonneg_right (div_nonneg ?_ ?_)) ?_
  · exact sub_nonneg.mpr (by exact_mod_cast hleft.le)
  · exact (unitsToOne_pos n).le
  · rw [add_lt_add_iff_left, unitsToOne_eq, div_lt_div_iff₀ (by positivity) (by positivity)]
    linarith

theorem value?_of_down (hdown : 2 * leftOver n ≤ n) :
    value? x = some (if 2 * leftOver n ≤ 2 ^ n.log2 then 1 else 1 - 1 / 2 ^ 24) := by
  have hshare := leftShare_nonneg n
  rw [product_of_down hdown] at h
  split
  · next hsmall =>
    have hle : leftShare n ≤ (1 : ℕ) / 2 ^ 25 :=
      leftShare_le_iff.mpr (hsmall.trans_eq (one_mul _).symm)
    rw [Nat.cast_one] at hle
    exact value?_of_near_below hk h (by linarith) (by linarith)
  · next hlarge =>
    have hgt : ¬ leftShare n ≤ (1 : ℕ) / 2 ^ 25 := fun hle =>
      hlarge ((leftShare_le_iff.mp hle).trans_eq (one_mul _))
    rw [Nat.cast_one, not_le] at hgt
    have hsize := lt_two_mul_two_pow_log2 n
    have hle : leftShare n ≤ (2 : ℕ) / 2 ^ 25 := leftShare_le_iff.mpr (by omega)
    rw [Nat.cast_ofNat] at hle
    refine value?_of_below hk h ?_ (by linarith)
    norm_num at hle ⊢
    linarith

end

theorem value?_mul_reciprocal (hpos : 0 < n) (hn : n < 2 ^ 24) (hx : value? x = some (n : ℚ)) :
    value? (x * (1.0 / ofNat n)) = some (if Recovers n then 1 else 1 - 1 / 2 ^ 24) := by
  obtain ⟨k, hk, hlands⟩ := product_lands (proper_unpack x) (proper_unpack (1.0 / ofNat n)) hx
    (value?_reciprocal hpos hn)
  have hk : rank? (x * (1.0 / ofNat n)) = some k := hk
  rw [← mul_div_assoc] at hlands
  rcases lt_or_ge n (2 * leftOver n) with hup | hdown
  · rw [if_pos (show Recovers n from .inr hup)]
    exact value?_of_up hk hlands hpos hup
  · have hiff : Recovers n ↔ 2 * leftOver n ≤ 2 ^ n.log2 := or_iff_left (not_lt.mpr hdown)
    rw [if_congr hiff rfl rfl]
    exact value?_of_down hk hlands hdown

example : (List.range 60).filter (fun n => ¬ Recovers n) = [41, 47, 55] := by decide

end

end TileTracer.Binary32
