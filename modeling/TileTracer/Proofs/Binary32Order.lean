import Mathlib
import TileTracer.Proofs.RankedScalars

/-!
The finite values of one sign lie on a ladder: from one to the next it is one step, also where the
exponent changes, and infinity stands above the last. Comparing two values is comparing their
places.
-/

namespace TileTracer.Binary32

open Float.Model (Format UnpackedFloat)
open Float.Model.UnpackedFloat (Sign)

/-- How many steps a finite value is away from zero. -/
def steps (m : Nat) (e : Int) : Int := (e + 149) * 2 ^ 23 + m

def infinitySteps : Int := 255 * 2 ^ 23

/-- A mantissa and an exponent of the format, large exponents aside: unless the exponent is the
least one, the mantissa has its leading bit. -/
structure Canonical (m : Nat) (e : Int) : Prop where
  mantissa_lt : m < 2 ^ 24
  least_le : -149 ≤ e
  leading : 2 ^ 23 ≤ m ∨ e = -149

theorem Canonical.steps_lt_steps {m n : Nat} {e f : Int} (hm : Canonical m e) (hn : Canonical n f)
    (hlt : e < f) : steps m e < steps n f := by
  have := hm.mantissa_lt
  have := hm.least_le
  have := hn.leading
  unfold steps
  omega

theorem compare_neg_neg (x y : Int) : compare (-x) (-y) = compare y x := by
  rcases Int.lt_trichotomy y x with hlt | rfl | hlt
  · rw [Int.compare_eq_lt.mpr hlt, Int.compare_eq_lt.mpr (Int.neg_lt_neg hlt)]
  · rw [Int.compare_eq_eq.mpr rfl, Int.compare_eq_eq.mpr rfl]
  · rw [Int.compare_eq_gt.mpr hlt, Int.compare_eq_gt.mpr (Int.neg_lt_neg hlt)]

theorem Canonical.compare_eq {m n : Nat} {e f : Int} (hm : Canonical m e) (hn : Canonical n f) :
    (compare e f).then (compare m n) = compare (steps m e) (steps n f) := by
  rcases Int.lt_trichotomy e f with hlt | rfl | hlt
  · rw [Int.compare_eq_lt.mpr hlt, Int.compare_eq_lt.mpr (hm.steps_lt_steps hn hlt)]
    rfl
  · rw [Int.compare_eq_eq.mpr rfl]
    rcases Nat.lt_trichotomy m n with hmn | rfl | hmn
    · rw [Nat.compare_eq_lt.mpr hmn, Int.compare_eq_lt.mpr (by unfold steps; omega)]
      rfl
    · rw [Nat.compare_eq_eq.mpr rfl, Int.compare_eq_eq.mpr rfl]
      rfl
    · rw [Nat.compare_eq_gt.mpr hmn, Int.compare_eq_gt.mpr (by unfold steps; omega)]
      rfl
  · rw [Int.compare_eq_gt.mpr hlt, Int.compare_eq_gt.mpr (hn.steps_lt_steps hm hlt)]
    rfl

/-- The values of the format. -/
def Proper : UnpackedFloat → Prop
  | .finite _ m e _ => Canonical m e ∧ e ≤ 104
  | _ => True

/-- The place of a value on the ladder, below zero for negative values. -/
def place? : UnpackedFloat → Option Int
  | .notANumber => none
  | .infinity s => some (s.apply infinitySteps)
  | .zero _ => some 0
  | .finite s m e _ => some (s.apply (steps m e))

theorem Canonical.steps_pos {m : Nat} {e : Int} (h : Canonical m e) (hm : 0 < m) :
    0 < steps m e := by
  have := h.least_le
  unfold steps
  omega

theorem Canonical.steps_lt_infinity {m : Nat} {e : Int} (h : Canonical m e) (he : e ≤ 104) :
    steps m e < infinitySteps := by
  have := h.mantissa_lt
  unfold steps infinitySteps
  omega

theorem compare_eq_compare_place {a b : UnpackedFloat} (ha : Proper a) (hb : Proper b) :
    a.compare b = (place? a).bind fun x => (place? b).map fun y => compare x y := by
  have hlt {x y : Int} (h : x < y) : some Ordering.lt = some (compare x y) :=
    congrArg some (Int.compare_eq_lt.mpr h).symm
  have hgt {x y : Int} (h : y < x) : some Ordering.gt = some (compare x y) :=
    congrArg some (Int.compare_eq_gt.mpr h).symm
  cases a with
  | notANumber => rfl
  | infinity s =>
      cases b with
      | notANumber => cases s <;> rfl
      | infinity t => cases s <;> cases t <;> rfl
      | zero t => cases s <;> rfl
      | finite t n f hn =>
          have hpos := hb.1.steps_pos hn
          have htop := hb.1.steps_lt_infinity hb.2
          cases s with
          | negative => cases t <;> exact hlt (by simp only [Sign.apply]; omega)
          | positive => cases t <;> exact hgt (by simp only [Sign.apply]; omega)
  | zero s =>
      cases b with
      | notANumber => rfl
      | infinity t => cases t <;> rfl
      | zero t => rfl
      | finite t n f hn =>
          have hpos := hb.1.steps_pos hn
          cases t with
          | negative => exact hgt (by simp only [Sign.apply]; omega)
          | positive => exact hlt (by simp only [Sign.apply]; omega)
  | finite s m e hm =>
      have hpos := ha.1.steps_pos hm
      have htop := ha.1.steps_lt_infinity ha.2
      cases b with
      | notANumber => cases s <;> rfl
      | infinity t =>
          cases t with
          | negative => cases s <;> exact hgt (by simp only [Sign.apply]; omega)
          | positive => cases s <;> exact hlt (by simp only [Sign.apply]; omega)
      | zero t =>
          cases s with
          | negative => exact hlt (by simp only [Sign.apply]; omega)
          | positive => exact hgt (by simp only [Sign.apply]; omega)
      | finite t n f hn =>
          have hpos' := hb.1.steps_pos hn
          have hcompare := ha.1.compare_eq hb.1
          cases s with
          | negative =>
              cases t with
              | negative =>
                  refine congrArg some ?_
                  rw [hcompare, Int.compare_swap]
                  exact (compare_neg_neg _ _).symm
              | positive => exact hlt (by simp only [Sign.apply]; omega)
          | positive =>
              cases t with
              | negative => exact hgt (by simp only [Sign.apply]; omega)
              | positive => exact congrArg some hcompare

def rank? (x : Float32) : Option Int := place? x.toModel.unpack

open Float.Model.UnpackedFloat in
theorem proper_unpack (x : Float32) : Proper x.toModel.unpack := by
  change Proper (unpack Format.binary32 x.toModel.toBits.toBitVec)
  generalize x.toModel.toBits.toBitVec = b
  unfold unpack
  dsimp only
  have hmantissa : (@unpackMantissa .binary32 b).toNat < 2 ^ 23 := BitVec.isLt _
  have hexponent : (@unpackExponent .binary32 b).toNat < 2 ^ 8 := BitVec.isLt _
  have hbias : Format.binary32.exponentBias = 127 := rfl
  split
  · split <;> trivial
  · next hinf =>
    have hinf : (@unpackExponent .binary32 b).toNat ≠ 255 :=
      fun h => hinf (BitVec.eq_of_toNat_eq (h.trans rfl))
    split
    · next hzero =>
      split
      · trivial
      · rw [hzero, hbias]
        exact ⟨⟨by omega, by decide, .inr rfl⟩, by decide⟩
    · next hzero =>
      have hzero : (@unpackExponent .binary32 b).toNat ≠ 0 :=
        fun h => hzero (BitVec.eq_of_toNat_eq (h.trans rfl))
      have hleading : (1#1 ++ @unpackMantissa .binary32 b).toNat =
          2 ^ 23 + (@unpackMantissa .binary32 b).toNat := by
        rw [BitVec.toNat_append, ← Nat.shiftLeft_add_eq_or_of_lt hmantissa]
        rfl
      rw [hbias]
      refine ⟨⟨?_, ?_, .inl ?_⟩, ?_⟩
      · rw [hleading]
        omega
      · omega
      · rw [hleading]
        omega
      · omega

theorem compare_eq_compare_rank (x y : Float32) :
    x.toModel.unpack.compare y.toModel.unpack =
      (rank? x).bind fun a => (rank? y).map fun b => compare a b :=
  compare_eq_compare_place (proper_unpack x) (proper_unpack y)

theorem lt_iff {x y : Float32} : x < y ↔ ∃ a b, rank? x = some a ∧ rank? y = some b ∧ a < b := by
  have hmodel : x < y ↔ x.toModel.unpack.lt y.toModel.unpack = true :=
    decide_eq_true_iff
  rw [hmodel, UnpackedFloat.lt, compare_eq_compare_rank]
  cases rank? x <;> cases rank? y <;> simp [Int.compare_eq_lt]

theorem le_iff {x y : Float32} : x ≤ y ↔ ∃ a b, rank? x = some a ∧ rank? y = some b ∧ a ≤ b := by
  have hmodel : x ≤ y ↔ x.toModel.unpack.le y.toModel.unpack = true :=
    decide_eq_true_iff
  rw [hmodel, UnpackedFloat.le, compare_eq_compare_rank]
  cases rank? x <;> cases rank? y <;> simp [Int.isLE_compare]

theorem ranking : Ranking rank? := ⟨lt_iff, le_iff⟩

theorem le_self_iff {x : Float32} : x ≤ x ↔ ∃ a, rank? x = some a := ranking.le_self_iff

open Float.Model.UnpackedFloat in
/-- Only one bit pattern is not a number. -/
theorem toBits_of_not_number {x : Float32} (hx : ¬ x ≤ x) :
    x.toModel.toBits.toBitVec = packedNaN .binary32 := by
  have hplace : place? (unpack .binary32 x.toModel.toBits.toBitVec) = none :=
    Option.eq_none_iff_forall_ne_some.mpr fun a ha => hx (le_self_iff.mpr ⟨a, ha⟩)
  unfold unpack at hplace
  dsimp only at hplace
  split at hplace
  · next hexponent =>
    split at hplace
    · cases hplace
    · next hmantissa => exact x.toModel.valid.eq_packedNaN hexponent hmantissa
  · split at hplace
    · split at hplace <;> cases hplace
    · cases hplace

theorem eq_of_not_number {x y : Float32} (hx : ¬ x ≤ x) (hy : ¬ y ≤ y) : x = y := by
  obtain ⟨⟨a, ha⟩⟩ := x
  obtain ⟨⟨b, hb⟩⟩ := y
  have hbits : a.toBitVec = b.toBitVec :=
    (toBits_of_not_number hx).trans (toBits_of_not_number hy).symm
  obtain rfl : a = b := UInt32.toBitVec_inj.mp hbits
  rfl

instance : OrderedScalar Float32 := ranking.orderedScalar

end TileTracer.Binary32
