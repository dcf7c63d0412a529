import Mathlib.Algebra.Order.Ring.Int
import TileTracer.Proofs.PixelSamples
import TileTracer.Proofs.TileMosaic

namespace TileTracer

/-- A word that equals its own high bits, moved down, has no bits at all. -/
theorem eq_zero_of_shiftRight_eq {d k : UInt64} (hk : 0 < k) (hk' : k < 64) (h : d >>> k = d) :
    d = 0 := by
  have hlow : 0 < k.toNat := UInt64.lt_iff_toNat_lt.mp hk
  have hhigh : k.toNat < 64 := UInt64.lt_iff_toNat_lt.mp hk'
  have hdiv : d.toNat / 2 ^ k.toNat = d.toNat := by
    have hnat := congrArg UInt64.toNat h
    rwa [UInt64.toNat_shiftRight, Nat.shiftRight_eq_div_pow, Nat.mod_eq_of_lt hhigh] at hnat
  apply UInt64.toNat_inj.mp
  by_contra hne
  have hpow : 1 < 2 ^ k.toNat := Nat.one_lt_two_pow (Nat.ne_of_gt hlow)
  exact absurd hdiv (Nat.ne_of_lt (Nat.div_lt_self (Nat.pos_of_ne_zero hne) hpow))

theorem xor_shiftRight_inj {z w k : UInt64} (hk : 0 < k) (hk' : k < 64) :
    z ^^^ (z >>> k) = w ^^^ (w >>> k) ↔ z = w := by
  refine ⟨fun h => ?_, fun h => h ▸ rfl⟩
  -- The bits in which the two differ equal their own high bits, moved down.
  have hdiffer : (z ^^^ w) >>> k = z ^^^ w := by
    rw [UInt64.shiftRight_xor]
    have hboth : (z ^^^ (z >>> k)) ^^^ (w ^^^ (w >>> k)) = 0 := by rw [h, UInt64.xor_self]
    apply UInt64.xor_eq_zero_iff.mp
    rw [← hboth]
    ac_rfl
  exact UInt64.xor_eq_zero_iff.mp (eq_zero_of_shiftRight_eq hk hk' hdiffer)

theorem mul_inj_of_inverse {z w c inverse : UInt64} (hc : c * inverse = 1) :
    z * c = w * c ↔ z = w := by
  refine ⟨fun h => ?_, fun h => h ▸ rfl⟩
  calc z = z * c * inverse := by rw [UInt64.mul_assoc, hc, UInt64.mul_one]
    _ = w * c * inverse := by rw [h]
    _ = w := by rw [UInt64.mul_assoc, hc, UInt64.mul_one]

theorem place_inj {x y x' y' : UInt32} :
    (y.toUInt64 <<< 32) ||| x.toUInt64 = (y'.toUInt64 <<< 32) ||| x'.toUInt64 ↔
      x = x' ∧ y = y' := by
  have htoNat (x y : UInt32) : ((y.toUInt64 <<< 32) ||| x.toUInt64).toNat =
      y.toNat * 2 ^ 32 + x.toNat := by
    have hx := x.toNat_lt
    have hy := y.toNat_lt
    rw [UInt64.toNat_or, UInt64.toNat_shiftLeft, UInt32.toNat_toUInt64, UInt32.toNat_toUInt64]
    change (y.toNat <<< 32 % 2 ^ 64) ||| x.toNat = _
    rw [Nat.shiftLeft_eq, Nat.mod_eq_of_lt (by omega), ← Nat.shiftLeft_eq,
      ← Nat.shiftLeft_add_eq_or_of_lt hx]
  constructor
  · intro h
    have hnat := congrArg UInt64.toNat h
    rw [htoNat, htoNat] at hnat
    have := x.toNat_lt
    have := x'.toNat_lt
    exact ⟨UInt32.toNat_inj.mp (by omega), UInt32.toNat_inj.mp (by omega)⟩
  · rintro ⟨rfl, rfl⟩
    rfl

/-- Place and pass of a pixel in one word that is still to be mixed. -/
def pixelWord (x y pass : UInt32) : UInt64 :=
  ((y.toUInt64 <<< 32) ||| x.toUInt64) ^^^ (pass.toUInt64 * 0x9E3779B97F4A7C15)

variable {x y x' y' pass pass' : UInt32}

theorem pixelSeed_eq_iff :
    pixelSeed x y pass = pixelSeed x' y' pass' ↔ pixelWord x y pass = pixelWord x' y' pass' := by
  have hfirst : (0xBF58476D1CE4E5B9 : UInt64) * 0x96DE1B173F119089 = 1 := by decide
  have hsecond : (0x94D049BB133111EB : UInt64) * 0x319642B2D24D8EC3 = 1 := by decide
  unfold pixelSeed
  dsimp only
  rw [xor_shiftRight_inj (by decide) (by decide), mul_inj_of_inverse hsecond,
    xor_shiftRight_inj (by decide) (by decide), mul_inj_of_inverse hfirst,
    xor_shiftRight_inj (by decide) (by decide)]
  rfl

theorem pixelSeed_eq_iff_of_pass :
    pixelSeed x y pass = pixelSeed x' y' pass ↔ x = x' ∧ y = y' := by
  rw [pixelSeed_eq_iff, pixelWord, pixelWord, UInt64.xor_left_inj, place_inj]

theorem pixelSeed_eq_iff_of_place : pixelSeed x y pass = pixelSeed x y pass' ↔ pass = pass' := by
  have hgolden : (0x9E3779B97F4A7C15 : UInt64) * 0xF1DE83E19937733D = 1 := by decide
  rw [pixelSeed_eq_iff, pixelWord, pixelWord, UInt64.xor_right_inj, mul_inj_of_inverse hgolden,
    UInt32.toUInt64_inj]

/-- The pixels of one pass have different seeds, and so have the passes of one pixel. -/
theorem pixelSeed_injective :
    (pixelSeed x y pass = pixelSeed x' y' pass ↔ x = x' ∧ y = y') ∧
      (pixelSeed x y pass = pixelSeed x y pass' ↔ pass = pass') :=
  ⟨pixelSeed_eq_iff_of_pass, pixelSeed_eq_iff_of_place⟩

def Region.seeds (r : Region) (pass : Nat) : List UInt64 :=
  (List.range r.pixelCount).map fun i =>
    pixelSeed (r.x + i % r.width).toUInt32 (r.y + i / r.width).toUInt32 pass.toUInt32

namespace Region

variable {r r' : Region} {width height x y x' y' : Nat}

theorem toUInt32_inj {n n' : Nat} (hn : n < 2 ^ 32) (hn' : n' < 2 ^ 32)
    (h : n.toUInt32 = n'.toUInt32) : n = n' := by
  have hnat := congrArg UInt32.toNat h
  rwa [Nat.toUInt32_eq, Nat.toUInt32_eq, UInt32.toNat_ofNat_of_lt' hn,
    UInt32.toNat_ofNat_of_lt' hn'] at hnat

theorem Inside.place_inj (hr : r.Inside width height) (hr' : r'.Inside width height)
    (hwidth : width ≤ 2 ^ 32) (hheight : height ≤ 2 ^ 32) (h : r.Covers x y) (h' : r'.Covers x' y')
    (heq : x.toUInt32 = x'.toUInt32 ∧ y.toUInt32 = y'.toUInt32) : x = x' ∧ y = y' := by
  unfold Inside at hr hr'
  unfold Covers at h h'
  exact ⟨toUInt32_inj (by omega) (by omega) heq.1, toUInt32_inj (by omega) (by omega) heq.2⟩

/-- No two pixels of an image that are rendered in one pass start from the same seed. -/
theorem cover_seeds_nodup (size pass : Nat) (hwidth : width ≤ 2 ^ 32) (hheight : height ≤ 2 ^ 32) :
    ((cover width height size).flatMap (·.seeds pass)).Nodup := by
  have hsame {r r' : Region} (hr : r ∈ cover width height size) (hr' : r' ∈ cover width height size)
      {i j : Nat} (hi : i < r.pixelCount) (hj : j < r'.pixelCount)
      (h : pixelSeed (r.x + i % r.width).toUInt32 (r.y + i / r.width).toUInt32 pass.toUInt32 =
        pixelSeed (r'.x + j % r'.width).toUInt32 (r'.y + j / r'.width).toUInt32 pass.toUInt32) :
      r.x + i % r.width = r'.x + j % r'.width ∧ r.y + i / r.width = r'.y + j / r'.width :=
    (inside_of_mem_cover hr).place_inj (inside_of_mem_cover hr') hwidth hheight
      (covers_of_lt hi) (covers_of_lt hj) (pixelSeed_eq_iff_of_pass.mp h)
  rw [List.nodup_flatMap]
  constructor
  · intro r hr
    refine List.nodup_range.map_on fun i hi j hj h => ?_
    obtain ⟨hx, hy⟩ := hsame hr hr (List.mem_range.mp hi) (List.mem_range.mp hj) h
    rw [← r.localIndex_place i, hx, hy, r.localIndex_place]
  · rw [List.pairwise_iff_getElem]
    intro m n hm hn hlt seed hseed hseed'
    obtain ⟨i, hi, rfl⟩ := List.mem_map.mp hseed
    obtain ⟨j, hj, heq⟩ := List.mem_map.mp hseed'
    obtain ⟨hx, hy⟩ := hsame (List.getElem_mem hn) (List.getElem_mem hm) (List.mem_range.mp hj)
      (List.mem_range.mp hi) heq
    have hcovers := covers_of_lt (List.mem_range.mp hj)
    rw [hx, hy] at hcovers
    exact Nat.ne_of_lt hlt (place_unique (List.getElem?_eq_getElem hm)
      (covers_of_lt (List.mem_range.mp hi)) (List.getElem?_eq_getElem hn) hcovers)

end Region

end TileTracer
