import TileTracer.Proofs.Binary32Error

namespace TileTracer.Binary32

open Float.Model (Format UnpackedFloat)
open Float.Model.UnpackedFloat

/-- A magnitude without what lies behind its point. -/
theorem roundToInt_eq (s : Sign) (m : ℕ) (e : ℤ) :
    roundToInt s m e = s.apply (⌊(m : ℚ) * 2 ^ e⌋₊ : ℕ) := by
  unfold roundToInt decreaseExponent shiftToExponent
  dsimp only
  obtain ⟨k, hk⟩ : ∃ k, k = (e - 0).toNat := ⟨_, rfl⟩
  rw [← hk, Nat.shiftLeft_eq]
  have hgrid : ((m * 2 ^ k : ℕ) : ℚ) / 2 ^ (0 - (e - k)).toNat = m * 2 ^ e := by
    rw [← zpow_natCast, Int.toNat_of_nonneg (by omega), zero_sub, zpow_neg, div_inv_eq_mul,
      Nat.cast_mul, Nat.cast_pow, Nat.cast_ofNat, mul_assoc, ← zpow_natCast,
      ← zpow_add₀ two_ne_zero, add_sub_cancel]
  have hshifted := (standsFor_exact (m * 2 ^ k)).shiftRight (0 - (e - k)).toNat
  rw [hgrid] at hshifted
  exact congrArg (fun n : ℕ => s.apply n)
    ((Nat.floor_eq_iff (by positivity)).mpr hshifted.bounds).symm

theorem toNat_ofNatClamp (n : ℕ) : (UInt8.ofNatClamp n).toNat = min n 255 := by
  unfold UInt8.ofNatClamp
  have hsize : UInt8.size = 256 := rfl
  split
  · next h =>
    rw [UInt8.toNat_ofNatLT]
    omega
  · next h =>
    rw [UInt8.toNat_ofNatLT]
    omega

theorem toNat_ofNatClamp_word (n : ℕ) : (UInt32.ofNatClamp n).toNat = min n (2 ^ 32 - 1) := by
  unfold UInt32.ofNatClamp
  have hsize : UInt32.size = 2 ^ 32 := rfl
  split
  · next h =>
    rw [UInt32.toNat_ofNatLT]
    omega
  · next h =>
    rw [UInt32.toNat_ofNatLT]
    omega

variable {x y : Float32} {q : ℚ}

/-- Whole numbers are taken toward zero, and those below zero are then cut off. -/
theorem toNat_toInt (hq : value? x = some q) (low high : ℤ) :
    (x.toModel.unpack.toInt low high).toNat = ⌊q⌋₊ := by
  unfold value? at hq
  cases hx : x.toModel.unpack with
  | notANumber => rw [hx] at hq; cases hq
  | infinity s => rw [hx] at hq; cases hq
  | zero s =>
      rw [hx] at hq
      cases hq
      rw [Nat.floor_zero]
      rfl
  | finite s m e hm =>
      rw [hx] at hq
      cases hq
      change (roundToInt s m e).toNat = _
      rw [roundToInt_eq]
      have hpos : (0 : ℚ) ≤ m * 2 ^ e := by positivity
      cases s with
      | negative =>
          rw [signed, Nat.floor_of_nonpos (neg_nonpos.mpr hpos), Sign.apply,
            Int.toNat_of_nonpos (neg_nonpos.mpr (Int.natCast_nonneg _))]
      | positive => rw [signed, Sign.apply, Int.toNat_natCast]

theorem toNat_toUInt8 (hq : value? x = some q) : x.toUInt8.toNat = min ⌊q⌋₊ 255 := by
  change (UInt8.ofNatClamp (x.toModel.unpack.toInt 0 (UInt8.size - 1)).toNat).toNat = _
  rw [toNat_ofNatClamp, toNat_toInt hq]

theorem toNat_toUInt32 (hq : value? x = some q) : x.toUInt32.toNat = min ⌊q⌋₊ (2 ^ 32 - 1) := by
  change (UInt32.ofNatClamp (x.toModel.unpack.toInt 0 (UInt32.size - 1)).toNat).toNat = _
  rw [toNat_ofNatClamp_word, toNat_toInt hq]

theorem toUInt32_of_not_number (hx : ¬ x ≤ x) : x.toUInt32 = 0 := by
  change UInt32.ofNatClamp (x.toModel.unpack.toInt 0 (UInt32.size - 1)).toNat = 0
  rw [unpack_of_not_number hx]
  decide

theorem toUInt8_mono (hx : Scalar.isFinite x = true) (hy : Scalar.isFinite y = true) (h : x ≤ y) :
    x.toUInt8 ≤ y.toUInt8 := by
  rw [UInt8.le_iff_toNat_le, toNat_toUInt8 (value?_eq_some_value hx),
    toNat_toUInt8 (value?_eq_some_value hy)]
  exact min_le_min_right 255 (Nat.floor_mono (value_le_of_le hx hy h))

end TileTracer.Binary32
