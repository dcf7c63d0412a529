import TileTracer.Proofs.Binary32Spans

namespace TileTracer.Binary32

open Float.Model (Format UnpackedFloat)
open Float.Model.UnpackedFloat

variable {x y : Float32}

theorem Canonical.value?_eq {m : ℕ} {e k : ℤ} (h : Canonical m e) (he : e ≤ 104)
    (hk : rank? x = some k) (hlands : Lands (m * 2 ^ e) k) :
    value? x = some ((m : ℚ) * 2 ^ e) := by
  have hplace : rank? x = some (steps m e) := by
    rw [hk, le_antisymm (hlands.mono (h.lands he) le_rfl) ((h.lands he).mono hlands le_rfl)]
  rcases Nat.eq_zero_or_pos m with rfl | hm
  · have hleast : e = -149 := h.leading.resolve_left (by decide)
    have hzero : steps 0 e = 0 := by rw [hleast]; rfl
    rw [hzero] at hplace
    rw [Nat.cast_zero, zero_mul]
    exact value?_of_rank_eq (hplace.trans rank?_zero.symm) value?_zero
  · exact rational_of_place_eq (g := .finite .positive m e hm) (proper_unpack x) ⟨h, he⟩ hplace rfl

theorem exists_canonical {n : ℕ} (hn : n < 2 ^ 24) :
    ∃ m e, Canonical m e ∧ e ≤ 104 ∧ (m : ℚ) * 2 ^ e = n := by
  rcases Nat.eq_zero_or_pos n with rfl | hpos
  · exact ⟨0, -149, ⟨by decide, le_rfl, .inr rfl⟩, by decide, by simp⟩
  · have hlog : n.log2 ≤ 23 := Nat.lt_succ_iff.mp ((Nat.log2_lt hpos.ne').mpr hn)
    refine ⟨n * 2 ^ (23 - n.log2), n.log2 - 23, ⟨?_, by omega, .inl ?_⟩, by omega, ?_⟩
    · calc n * 2 ^ (23 - n.log2) < 2 ^ (n.log2 + 1) * 2 ^ (23 - n.log2) :=
            Nat.mul_lt_mul_of_pos_right Nat.lt_log2_self (Nat.two_pow_pos _)
        _ = 2 ^ 24 := by rw [← pow_add]; congr 1; omega
    · calc 2 ^ 23 = 2 ^ n.log2 * 2 ^ (23 - n.log2) := by rw [← pow_add]; congr 1; omega
        _ ≤ n * 2 ^ (23 - n.log2) := Nat.mul_le_mul_right _ (Nat.log2_self_le hpos.ne')
    · rw [Nat.cast_mul, Nat.cast_pow, Nat.cast_ofNat, mul_assoc, ← zpow_natCast,
        ← zpow_add₀ two_ne_zero, Nat.cast_sub hlog]
      norm_num

theorem value?_of_lands_natCast {n : ℕ} {k : ℤ} (hn : n < 2 ^ 24) (hk : rank? x = some k)
    (h : Lands n k) : value? x = some (n : ℚ) := by
  obtain ⟨m, e, hc, he, hvalue⟩ := exists_canonical hn
  rw [← hvalue] at h ⊢
  exact hc.value?_eq he hk h

theorem rank_toFloat32 (n : UInt64) :
    ∃ k, rank? n.toFloat32 = some k ∧ Lands n.toNat k := by
  obtain ⟨k, hk, hlands⟩ := normalize_lands n.toNat 0 .positive
  rw [zpow_zero, mul_one, Int.cast_natCast] at hlands
  exact ⟨k, hk, hlands⟩

/-- A natural number lands where it is rounded to, on either way that literals take. -/
theorem rank_ofNat (n : ℕ) : ∃ k, rank? (ofNat n) = some k ∧ Lands n k := by
  change ∃ k, rank? (Float32.ofScientific n false 0) = some k ∧ _
  unfold Float32.ofScientific
  split
  · next hsmall =>
    have hword : n.toUInt64.toNat = n :=
      UInt64.toNat_ofNat_of_lt' (hsmall.1.trans (by decide))
    obtain ⟨k, hk, hlands⟩ := rank_toFloat32 n.toUInt64
    rw [hword] at hlands
    have hvalue := value?_of_lands_natCast (hsmall.1.trans (by decide)) hk hlands
    have hone : value? Float32.exactlyRepresentablePowersOfTen[0] = some 1 := by decide +kernel
    obtain ⟨l, hl, hproduct⟩ := product_lands (proper_unpack _) (proper_unpack _) hvalue hone
    rw [mul_one] at hproduct
    exact ⟨l, hl, hproduct⟩
  · next hlarge =>
    have hpos : n ≠ 0 := by
      rintro rfl
      exact hlarge (by decide)
    change ∃ k, place? (repack (UnpackedFloat.ofScientific .binary32 n 0)) = some k ∧ _
    have hexponent : ¬ (0 : ℤ) < -(2 ^ Format.binary32.exponentBits + (n.log2 : ℤ)) := by
      have : (0 : ℤ) ≤ 2 ^ Format.binary32.exponentBits := by positivity
      omega
    unfold UnpackedFloat.ofScientific
    rw [dif_neg hpos, if_neg (by decide), if_neg hexponent, if_pos le_rfl]
    have hgrid : (n : ℚ) / 2 ^ (-24 : ℤ) = (n * 2 ^ 24 : ℕ) := by
      rw [zpow_neg, div_inv_eq_mul]
      exact_mod_cast rfl
    have hlong : 2 ^ 23 ≤ n * 2 ^ 24 := by omega
    obtain ⟨k, hk, hlands⟩ := lands_of_rounded n.cast_nonneg
      (roundWithAccuracy_rounded .positive (hgrid ▸ standsFor_exact _) (.inr hlong))
    refine ⟨k, ?_, hlands⟩
    rw [← hk, ← Nat.shiftLeft_eq, ← Nat.mul_one (n <<< 24), ← Int.add_zero (-24)]
    rfl

theorem value?_ofNat {n : ℕ} (hn : n < 2 ^ 24) : value? (ofNat n) = some (n : ℚ) := by
  obtain ⟨k, hk, hlands⟩ := rank_ofNat n
  exact value?_of_lands_natCast hn hk hlands

theorem within_ofNat {n b : ℕ} (hn : n ≤ 2 ^ b) (hb : b ≤ 127) : Within (ofNat n) (b + 1) := by
  obtain ⟨k, hk, hlands⟩ := rank_ofNat n
  refine within_of_lands hk hlands ?_ hb
  rw [Nat.abs_cast]
  exact_mod_cast hn

theorem value?_add_natCast {m n : ℕ} (hx : value? x = some (m : ℚ)) (hy : value? y = some (n : ℚ))
    (h : m + n < 2 ^ 24) : value? (x + y) = some ((m + n : ℕ) : ℚ) := by
  obtain ⟨k, hk, hlands⟩ := sum_lands (proper_unpack x) (proper_unpack y) hx hy
  rw [← Nat.cast_add] at hlands
  exact value?_of_lands_natCast h hk hlands

end TileTracer.Binary32
