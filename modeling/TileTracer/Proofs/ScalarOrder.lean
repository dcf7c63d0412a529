import Mathlib.Tactic.ByContra
import TileTracer.Geometry.Ray

/-!
Of the comparisons only this is assumed: they order the numbers, up to numbers that compare as
equal, and hold of no value that is not a number. A number is a value that is at most itself.
-/

namespace TileTracer

/-- A scalar type whose comparisons order its numbers. -/
class OrderedScalar (α : Type) [Scalar α] : Prop where
  lt_irrefl (a : α) : ¬ a < a
  lt_trans {a b c : α} : a < b → b < c → a < c
  /-- A number lies below or above one of any two that are apart. -/
  lt_or_lt {a b c : α} : a < c → b ≤ b → a < b ∨ b < c
  le_self_of_lt {a b : α} : a < b → a ≤ a ∧ b ≤ b
  le_iff {a b : α} : a ≤ b ↔ a ≤ a ∧ b ≤ b ∧ ¬ b < a

namespace Scalar

open OrderedScalar

variable {α : Type} [Scalar α] {a b c m : α}

theorem lesser_eq_or (a b : α) : lesser a b = a ∨ lesser a b = b := by
  unfold lesser
  split
  · exact .inr rfl
  · split
    · exact .inl rfl
    · exact .inr rfl

theorem lesser_eq_left (ha : a ≤ a) (h : ¬ b < a) : lesser a b = a := by
  unfold lesser
  rw [if_neg h, if_pos ha]

theorem lesser_of_lt (h : b < a) : lesser a b = b := if_pos h

theorem lesser_of_not_number (ha : ¬ a ≤ a) : lesser a b = b := by
  unfold lesser
  rw [if_neg ha, ite_self]

theorem isFinite_eq_true : isFinite a = true ↔ -infinity < a ∧ a < infinity := by
  simp [isFinite]

variable [OrderedScalar α]

theorem lt_asymm (h : a < b) : ¬ b < a :=
  fun h' => lt_irrefl a (lt_trans h h')

theorem not_lt_of_le (h : a ≤ b) : ¬ b < a := (le_iff.mp h).2.2

theorem le_of_not_lt (ha : a ≤ a) (hb : b ≤ b) (h : ¬ b < a) : a ≤ b := le_iff.mpr ⟨ha, hb, h⟩

theorem self_le_of_le_left (h : a ≤ b) : a ≤ a := (le_iff.mp h).1

theorem self_le_of_le_right (h : a ≤ b) : b ≤ b := (le_iff.mp h).2.1

theorem le_of_lt (h : a < b) : a ≤ b :=
  le_of_not_lt (le_self_of_lt h).1 (le_self_of_lt h).2 (lt_asymm h)

theorem lt_of_not_le (ha : a ≤ a) (hb : b ≤ b) (h : ¬ a ≤ b) : b < a := by
  by_contra hba
  exact h (le_of_not_lt ha hb hba)

theorem lt_of_lt_of_le (hab : a < b) (hbc : b ≤ c) : a < c :=
  (lt_or_lt hab (self_le_of_le_right hbc)).resolve_right (not_lt_of_le hbc)

theorem lt_of_le_of_lt (hab : a ≤ b) (hbc : b < c) : a < c :=
  (lt_or_lt hbc (self_le_of_le_left hab)).resolve_left (not_lt_of_le hab)

theorem le_trans (hab : a ≤ b) (hbc : b ≤ c) : a ≤ c :=
  le_of_not_lt (self_le_of_le_left hab) (self_le_of_le_right hbc)
    fun hca => not_lt_of_le hab (lt_of_le_of_lt hbc hca)

theorem lesser_le_right (hb : b ≤ b) : lesser a b ≤ b := by
  unfold lesser
  split
  · exact hb
  · split
    · next hba ha => exact le_of_not_lt ha hb hba
    · exact hb

theorem lesser_le_left (ha : a ≤ a) : lesser a b ≤ a := by
  unfold lesser
  split
  · next hba => exact le_of_lt hba
  · simp [ha]

theorem le_greater_right (hb : b ≤ b) : b ≤ greater a b := by
  unfold greater
  split
  · exact hb
  · split
    · next hab ha => exact le_of_not_lt hb ha hab
    · exact hb

theorem lesser_le_self (ha : a ≤ a) : lesser a b ≤ lesser a b :=
  self_le_of_le_left (lesser_le_left ha)

theorem lt_lesser_iff (hb : b ≤ b) (hc : c ≤ c) : a < lesser b c ↔ a < b ∧ a < c := by
  constructor
  · intro h
    exact ⟨lt_of_lt_of_le h (lesser_le_left hb), lt_of_lt_of_le h (lesser_le_right hc)⟩
  · rintro ⟨hab, hac⟩
    rcases lesser_eq_or b c with h | h
    · rwa [h]
    · rwa [h]

theorem lesser_lt_of_lt (h : a < b) : lesser a m < b :=
  lt_of_le_of_lt (lesser_le_left (le_self_of_lt h).1) h

theorem lesser_le_of_le (h : a ≤ b) : lesser a m ≤ b :=
  le_trans (lesser_le_left (self_le_of_le_left h)) h

theorem lesser_not_number (hb : ¬ b ≤ b) (ha : a ≤ a) : lesser a b = a :=
  lesser_eq_left ha fun hlt => hb (le_self_of_lt hlt).1

theorem lesser_assoc (a b c : α) : lesser (lesser a b) c = lesser a (lesser b c) := by
  by_cases ha : a ≤ a
  · by_cases hb : b ≤ b
    · by_cases hba : b < a
      · rw [lesser_of_lt hba, lesser_of_lt (lesser_lt_of_lt hba)]
      · rw [lesser_eq_left ha hba]
        by_cases hcb : c < b
        · rw [lesser_of_lt hcb]
        · have hca : ¬ c < a := fun h => (lt_or_lt h hb).elim hcb hba
          rw [lesser_eq_left hb hcb, lesser_eq_left ha hca, lesser_eq_left ha hba]
    · rw [lesser_not_number hb ha, lesser_of_not_number hb]
  · rw [lesser_of_not_number ha, lesser_of_not_number ha]

theorem foldl_lesser_self_le (ha : a ≤ a) (limits : List α) : limits.foldl lesser a ≤ a := by
  induction limits generalizing a with
  | nil => exact ha
  | cons b limits ih => exact le_trans (ih (lesser_le_self ha)) (lesser_le_left ha)

theorem foldl_lesser_eq_self_iff (hunique : ∀ a b : α, ¬ a ≤ a → ¬ b ≤ b → a = b)
    {limits : List α} :
    limits.foldl lesser a = a ↔ ∀ b ∈ limits, lesser a b = a := by
  induction limits with
  | nil => exact iff_of_true rfl fun b hb => (List.not_mem_nil hb).elim
  | cons b limits ih =>
      have hfirst (h : limits.foldl lesser (lesser a b) = a) : lesser a b = a := by
        rcases lesser_eq_or a b with heq | heq
        · exact heq
        · rw [heq] at h ⊢
          by_cases hb : b ≤ b
          · have hle : a ≤ b := h ▸ foldl_lesser_self_le hb limits
            rw [← heq, lesser_eq_left (self_le_of_le_left hle) (not_lt_of_le hle)]
          · refine hunique b a hb fun ha => hb ?_
            rw [← heq]
            exact lesser_le_self ha
      rw [List.foldl_cons, List.forall_mem_cons]
      constructor
      · intro h
        have hab := hfirst h
        rw [hab] at h
        exact ⟨hab, ih.mp h⟩
      · rintro ⟨hab, hrest⟩
        rw [hab]
        exact ih.mpr hrest

end Scalar

namespace Window

open Scalar OrderedScalar

variable {α : Type} [Scalar α] {w : Window α} {m k t : α}

theorem surrounds_eq_true : w.surrounds t = true ↔ w.lower < t ∧ t < w.upper := by
  simp [surrounds]

structure Bounded (w : Window α) : Prop where
  lower : w.lower ≤ w.lower
  upper : w.upper ≤ w.upper

variable [OrderedScalar α]

theorem Bounded.upTo (h : w.Bounded) : (w.upTo m).Bounded := ⟨h.lower, lesser_le_self h.upper⟩

theorem upTo_upTo (w : Window α) (m k : α) : (w.upTo m).upTo k = w.upTo (lesser m k) := by
  simp only [Window.upTo, lesser_assoc]

theorem upTo_upper (h : w.Bounded) : w.upTo w.upper = w := by
  simp only [Window.upTo, lesser_eq_left h.upper (lt_irrefl _)]

theorem self_le_of_surrounds (h : w.surrounds t = true) : t ≤ t :=
  (le_self_of_lt (surrounds_eq_true.mp h).1).2

theorem surrounds_upTo (h : w.Bounded) (hm : m ≤ m) :
    (w.upTo m).surrounds t = true ↔ w.surrounds t = true ∧ t < m := by
  rw [surrounds_eq_true, surrounds_eq_true, and_assoc]
  exact and_congr_right fun _ => lt_lesser_iff h.upper hm

end Window

end TileTracer
