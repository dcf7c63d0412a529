import Mathlib.Analysis.SpecialFunctions.Complex.Arg
import Mathlib.Data.EReal.Basic
import TileTracer.Proofs.RankedScalars

/-!
Real numbers with the special values of binary arithmetic: two zeros apart by their sign, two
infinities, and what is not a number. Nothing is rounded. Where all values are finite, exact
arithmetic is that of the reals.
-/

namespace TileTracer

/-- The sign of a real; a zero may have either sign. -/
def SignOf (x : ℝ) (negative : Bool) : Prop := (x < 0 → negative = true) ∧ (0 < x → negative = false)

namespace SignOf

variable {x y : ℝ} {s t : Bool}

theorem zero (s : Bool) : SignOf 0 s := ⟨fun h => absurd h (lt_irrefl 0), fun h => absurd h (lt_irrefl 0)⟩

theorem of_nonneg (hx : 0 ≤ x) : SignOf x false := ⟨fun h => absurd h (not_lt_of_ge hx), fun _ => rfl⟩

theorem ite (x : ℝ) (s : Bool) : SignOf x (if x = 0 then s else decide (x < 0)) := by
  rcases lt_trichotomy x 0 with hx | rfl | hx
  · rw [if_neg hx.ne, decide_eq_true hx]
    exact ⟨fun _ => rfl, fun h => absurd h hx.not_gt⟩
  · exact zero _
  · rw [if_neg hx.ne', decide_eq_false hx.not_gt]
    exact of_nonneg hx.le

theorem neg (h : SignOf x s) : SignOf (-x) !s :=
  ⟨fun hx => congrArg Bool.not (h.2 (neg_lt_zero.mp hx)),
    fun hx => congrArg Bool.not (h.1 (neg_pos.mp hx))⟩

theorem mul (hx : SignOf x s) (hy : SignOf y t) : SignOf (x * y) (s ^^ t) := by
  constructor
  · intro h
    rcases mul_neg_iff.mp h with ⟨hx', hy'⟩ | ⟨hx', hy'⟩
    · rw [hx.2 hx', hy.1 hy']
      rfl
    · rw [hx.1 hx', hy.2 hy']
      rfl
  · intro h
    rcases mul_pos_iff.mp h with ⟨hx', hy'⟩ | ⟨hx', hy'⟩
    · rw [hx.2 hx', hy.2 hy']
      rfl
    · rw [hx.1 hx', hy.1 hy']
      rfl

theorem inv (h : SignOf x s) : SignOf x⁻¹ s :=
  ⟨fun hx => h.1 (inv_lt_zero.mp hx), fun hx => h.2 (inv_pos.mp hx)⟩

theorem div (hx : SignOf x s) (hy : SignOf y t) : SignOf (x / y) (s ^^ t) :=
  div_eq_mul_inv x y ▸ hx.mul hy.inv

theorem sqrt (h : SignOf x s) : SignOf (√x) s :=
  ⟨fun hlt => absurd hlt (not_lt_of_ge (Real.sqrt_nonneg x)), fun hlt => h.2 (Real.sqrt_pos.mp hlt)⟩

end SignOf

inductive Exact where
  | notANumber
  | infinite (negative : Bool)
  | finite (value : ℝ) (negative : Bool) (sign : SignOf value negative)

namespace Exact

noncomputable section

def ofValue (x : ℝ) (zeroSign : Bool) : Exact := finite x _ (SignOf.ite x zeroSign)

def ofReal (x : ℝ) : Exact := ofValue x false

instance : Neg Exact where
  neg
    | notANumber => notANumber
    | infinite s => infinite !s
    | finite x s h => finite (-x) (!s) h.neg

/-- A sum that comes to zero is negative only if both terms are. -/
instance : Add Exact where
  add
    | finite x s _, finite y t _ => ofValue (x + y) (s && t)
    | infinite s, finite _ _ _ => infinite s
    | finite _ _ _, infinite t => infinite t
    | infinite s, infinite t => if s = t then infinite s else notANumber
    | notANumber, _ => notANumber
    | _, notANumber => notANumber

instance : Sub Exact := ⟨fun a b => a + -b⟩

instance : Mul Exact where
  mul
    | finite x s hx, finite y t hy => finite (x * y) (s ^^ t) (hx.mul hy)
    | infinite s, finite y t _ => if y = 0 then notANumber else infinite (s ^^ t)
    | finite x s _, infinite t => if x = 0 then notANumber else infinite (s ^^ t)
    | infinite s, infinite t => infinite (s ^^ t)
    | notANumber, _ => notANumber
    | _, notANumber => notANumber

instance : Div Exact where
  div
    | finite x s hx, finite y t hy =>
      if y = 0 then if x = 0 then notANumber else infinite (s ^^ t)
      else finite (x / y) (s ^^ t) (hx.div hy)
    | infinite s, finite _ t _ => infinite (s ^^ t)
    | finite _ s _, infinite t => finite 0 (s ^^ t) (.zero _)
    | infinite _, infinite _ => notANumber
    | notANumber, _ => notANumber
    | _, notANumber => notANumber

def sqrt : Exact → Exact
  | finite x s h => if x < 0 then notANumber else finite (√x) s h.sqrt
  | infinite false => infinite false
  | infinite true => notANumber
  | notANumber => notANumber

def abs : Exact → Exact
  | finite x _ _ => finite |x| false (.of_nonneg (abs_nonneg x))
  | infinite _ => infinite false
  | notANumber => notANumber

def acos : Exact → Exact
  | finite x _ _ => if |x| ≤ 1 then ofReal (Real.arccos x) else notANumber
  | _ => notANumber

def turned (angle : ℝ) (negative : Bool) : Exact :=
  ofValue (if negative then -angle else angle) negative

/-- The angle of a point; on the axes and at infinity, signs of zeros tell the side. -/
def atan2 : Exact → Exact → Exact
  | finite y s _, finite x t _ =>
    if y = 0 then turned (if t then Real.pi else 0) s else ofReal (Complex.arg ⟨x, y⟩)
  | finite _ s _, infinite t => turned (if t then Real.pi else 0) s
  | infinite s, finite _ _ _ => turned (Real.pi / 2) s
  | infinite s, infinite t => turned (if t then 3 * Real.pi / 4 else Real.pi / 4) s
  | notANumber, _ => notANumber
  | _, notANumber => notANumber

/-- The place of a number on the line with its two ends. -/
def rank? : Exact → Option EReal
  | notANumber => none
  | infinite true => some ⊥
  | infinite false => some ⊤
  | finite x _ _ => some x

instance : LT Exact := ⟨fun a b => ∃ x y, rank? a = some x ∧ rank? b = some y ∧ x < y⟩

instance : LE Exact := ⟨fun a b => ∃ x y, rank? a = some x ∧ rank? b = some y ∧ x ≤ y⟩

instance : OfScientific Exact := ⟨fun m s e => ofReal (OfScientific.ofScientific m s e)⟩

instance : Scalar Exact where
  decidableLT _ _ := Classical.propDecidable _
  decidableLE _ _ := Classical.propDecidable _
  infinity := infinite false
  pi := ofReal Real.pi
  abs := abs
  sqrt := sqrt
  acos := acos
  atan2 := atan2

end

open Scalar

theorem ranking : Ranking rank? := ⟨Iff.rfl, Iff.rfl⟩

instance : OrderedScalar Exact := ranking.orderedScalar

/-! ## Finite values -/

/-- The value is finite and stands for this real. -/
inductive HasValue : Exact → ℝ → Prop
  | finite (x : ℝ) (s : Bool) (h : SignOf x s) : HasValue (.finite x s h) x

namespace HasValue

variable {a b : Exact} {x y : ℝ}

theorem ofValue (x : ℝ) (s : Bool) : HasValue (ofValue x s) x := .finite x _ _

theorem ofReal (x : ℝ) : HasValue (ofReal x) x := .ofValue x false

theorem ofScientific (m : ℕ) (s : Bool) (e : ℕ) :
    HasValue (OfScientific.ofScientific m s e) (OfScientific.ofScientific m s e) := .ofReal _

theorem zero : HasValue 0.0 0 := by
  have h := ofScientific 0 true 1
  norm_num at h
  exact h

theorem one : HasValue 1.0 1 := by
  have h := ofScientific 10 true 1
  norm_num at h
  exact h

theorem rank (hx : a.HasValue x) : rank? a = some (x : EReal) := by
  cases hx
  rfl

theorem neg (hx : a.HasValue x) : (-a).HasValue (-x) := by
  cases hx
  exact .finite _ _ _

theorem add (hx : a.HasValue x) (hy : b.HasValue y) : (a + b).HasValue (x + y) := by
  cases hx
  cases hy
  exact .ofValue _ _

theorem sub (hx : a.HasValue x) (hy : b.HasValue y) : (a - b).HasValue (x - y) :=
  sub_eq_add_neg x y ▸ hx.add hy.neg

theorem mul (hx : a.HasValue x) (hy : b.HasValue y) : (a * b).HasValue (x * y) := by
  cases hx
  cases hy
  exact .finite _ _ _

theorem div (hx : a.HasValue x) (hy : b.HasValue y) (hne : y ≠ 0) : (a / b).HasValue (x / y) := by
  cases hx with
  | finite x s hs =>
      cases hy with
      | finite y t ht =>
          have heq : Exact.finite x s hs / Exact.finite y t ht =
              Exact.finite (x / y) (s ^^ t) (hs.div ht) := if_neg hne
          exact heq ▸ .finite _ _ _

theorem sqrt (hx : a.HasValue x) (hnonneg : 0 ≤ x) : (Scalar.sqrt a).HasValue (√x) := by
  cases hx with
  | finite x s hs =>
      have heq : Scalar.sqrt (Exact.finite x s hs) = Exact.finite (√x) s hs.sqrt :=
        if_neg (not_lt_of_ge hnonneg)
      exact heq ▸ .finite _ _ _

theorem abs (hx : a.HasValue x) : (Scalar.abs a).HasValue |x| := by
  cases hx
  exact .finite _ _ _

theorem lt_iff (hx : a.HasValue x) (hy : b.HasValue y) : a < b ↔ x < y :=
  (ranking.lt_iff_of_rank hx.rank hy.rank).trans EReal.coe_lt_coe_iff

theorem le_iff (hx : a.HasValue x) (hy : b.HasValue y) : a ≤ b ↔ x ≤ y :=
  (ranking.le_iff_of_rank hx.rank hy.rank).trans EReal.coe_le_coe_iff

theorem isNumber (hx : a.HasValue x) : a ≤ a := (hx.le_iff hx).mpr le_rfl

theorem lesser (hx : a.HasValue x) (hy : b.HasValue y) : (lesser a b).HasValue (min x y) := by
  rcases lt_or_ge y x with h | h
  · rw [lesser_of_lt ((hy.lt_iff hx).mpr h), min_eq_right h.le]
    exact hy
  · rw [lesser_eq_left hx.isNumber (mt (hy.lt_iff hx).mp (not_lt_of_ge h)), min_eq_left h]
    exact hx

theorem greater (hx : a.HasValue x) (hy : b.HasValue y) : (greater a b).HasValue (max x y) := by
  rcases lt_or_ge x y with h | h
  · rw [greater_of_lt ((hx.lt_iff hy).mpr h), max_eq_right h.le]
    exact hy
  · rw [greater_eq_left hx.isNumber (mt (hx.lt_iff hy).mp (not_lt_of_ge h)), max_eq_left h]
    exact hx

end HasValue

theorem isFinite_iff {a : Exact} : isFinite a = true ↔ ∃ x, a.HasValue x := by
  simp only [isFinite, Bool.and_eq_true, decide_eq_true_eq]
  constructor
  · rintro ⟨hlow, hhigh⟩
    cases a with
    | notANumber =>
        obtain ⟨_, _, h, _, _⟩ := hhigh
        cases h
    | infinite s =>
        cases s with
        | false =>
            obtain ⟨_, _, hx, hy, hlt⟩ := hhigh
            cases hx.symm.trans hy
            exact absurd hlt (lt_irrefl _)
        | true =>
            obtain ⟨_, _, hx, hy, hlt⟩ := hlow
            cases hx.symm.trans hy
            exact absurd hlt (lt_irrefl _)
    | finite x s h => exact ⟨x, .finite x s h⟩
  · rintro ⟨x, hx⟩
    exact ⟨⟨⊥, x, rfl, hx.rank, EReal.bot_lt_coe x⟩, ⟨x, ⊤, hx.rank, rfl, EReal.coe_lt_top x⟩⟩

theorem HasValue.isFinite {a : Exact} {x : ℝ} (h : a.HasValue x) : isFinite a = true :=
  isFinite_iff.mpr ⟨x, h⟩

theorem isFinite_ofScientific (m : ℕ) (s : Bool) (e : ℕ) :
    isFinite (OfScientific.ofScientific m s e : Exact) = true :=
  (HasValue.ofScientific m s e).isFinite

theorem isFinite_neg {a : Exact} (h : isFinite a = true) : isFinite (-a) = true := by
  obtain ⟨x, hx⟩ := isFinite_iff.mp h
  exact hx.neg.isFinite

end Exact

end TileTracer
