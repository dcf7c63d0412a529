import Mathlib.Algebra.Order.Field.Power
import Mathlib.Data.Rat.Cast.Order
import Mathlib.Tactic.Linarith

namespace TileTracer

/-- An integer nearest to a rational, the even one of two equally near. -/
def NearestEven (x : ℚ) (n : ℤ) : Prop :=
  |x - n| < 1 / 2 ∨ |x - n| = 1 / 2 ∧ Even n

namespace NearestEven

variable {x y : ℚ} {m n : ℤ}

theorem abs_sub_le (h : NearestEven x n) : |x - n| ≤ 1 / 2 :=
  h.elim le_of_lt fun h => le_of_eq h.1

theorem of_int (n : ℤ) : NearestEven n n := .inl (by norm_num)

/-- Two integers apart could only be reached from one point half way between them, and then both
would be even. -/
theorem mono (hx : NearestEven x m) (hy : NearestEven y n) (hxy : x ≤ y) : m ≤ n := by
  by_contra hnm
  have hsucc : (n : ℚ) + 1 ≤ m := by exact_mod_cast (not_le.mp hnm)
  have hxm := (abs_le.mp hx.abs_sub_le).1
  have hyn := (abs_le.mp hy.abs_sub_le).2
  have heq : (m : ℚ) = n + 1 := by linarith
  have hm : m = n + 1 := by exact_mod_cast heq
  have htie : |x - m| = 1 / 2 := by
    rw [abs_of_nonpos (by linarith)]
    linarith
  have htie' : |y - n| = 1 / 2 := by
    rw [abs_of_nonneg (by linarith)]
    linarith
  have heven : Even m := hx.elim (fun h => absurd htie h.ne) And.right
  have heven' : Even n := hy.elim (fun h => absurd htie' h.ne) And.right
  rw [hm] at heven
  exact (Int.even_add_one.mp heven) heven'

theorem le_of_le (h : NearestEven x m) (hx : x ≤ n) : m ≤ n := h.mono (.of_int n) hx

theorem ge_of_ge (h : NearestEven x m) (hx : n ≤ x) : n ≤ m := (of_int n).mono h hx

end NearestEven

namespace Binary32

/-- Rounding a non-negative rational to binary32 ends at this number of steps from zero, exponents
being unbounded above. -/
def RoundsTo (x : ℚ) (r : ℤ) : Prop :=
  ∃ e n : ℤ, -149 ≤ e ∧ (2 ^ (e + 23) ≤ x ∨ e = -149) ∧ x < 2 ^ (e + 24) ∧
    NearestEven (x / 2 ^ e) n ∧ r = (e + 149) * 2 ^ 23 + n

namespace RoundsTo

theorem two_zpow_pos (e : ℤ) : (0 : ℚ) < 2 ^ e := zpow_pos two_pos e

theorem le_div_two_zpow {x : ℚ} {e : ℤ} (k : ℕ) (h : 2 ^ (e + k) ≤ x) : 2 ^ k ≤ x / 2 ^ e := by
  rw [le_div_iff₀ (two_zpow_pos e)]
  rwa [zpow_add₀ two_ne_zero, mul_comm, zpow_natCast] at h

theorem div_two_zpow_lt {x : ℚ} {e : ℤ} (k : ℕ) (h : x < 2 ^ (e + k)) : x / 2 ^ e < 2 ^ k := by
  rw [div_lt_iff₀ (two_zpow_pos e)]
  rwa [zpow_add₀ two_ne_zero, mul_comm, zpow_natCast] at h

theorem mono {x y : ℚ} {r s : ℤ} (hx : RoundsTo x r) (hy : RoundsTo y s) (hxy : x ≤ y) : r ≤ s := by
  obtain ⟨e, m, he, hlow, hhigh, hm, rfl⟩ := hx
  obtain ⟨f, n, hf, hlow', hhigh', hn, rfl⟩ := hy
  rcases lt_trichotomy e f with hlt | rfl | hlt
  · have hupper : m ≤ 2 ^ 24 :=
      hm.le_of_le (by exact_mod_cast (div_two_zpow_lt 24 hhigh).le)
    have hlower : 2 ^ 23 ≤ n :=
      hn.ge_of_ge (by exact_mod_cast le_div_two_zpow 23 (hlow'.resolve_right (by omega)))
    omega
  · have := hm.mono hn ((div_le_div_iff_of_pos_right (two_zpow_pos e)).mpr hxy)
    omega
  · have hgrid : (2 : ℚ) ^ (f + 24) ≤ 2 ^ (e + 23) :=
      zpow_le_zpow_right₀ one_le_two (by omega)
    have := hlow.resolve_right (by omega)
    linarith

end RoundsTo

end Binary32

end TileTracer
