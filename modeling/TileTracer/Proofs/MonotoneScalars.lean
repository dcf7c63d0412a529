import TileTracer.Proofs.ScalarOrder

/-!
A value limits a range from below or from above; one that is not a number limits nothing. Rounded
sums, differences and products keep the order of limits.
-/

namespace TileTracer

namespace Scalar

open OrderedScalar

variable {α : Type} [Scalar α] {a b c d t : α}

/-- As a limit from below `a` admits what `b` admits, and as a limit from above `b` admits what `a`
admits. -/
structure Under (a b : α) : Prop where
  below {t : α} : t < a → t < b
  above {t : α} : b < t → a < t

theorem Under.refl (a : α) : Under a a := ⟨id, id⟩

theorem Under.trans (hab : Under a b) (hbc : Under b c) : Under a c :=
  ⟨hbc.below ∘ hab.below, hab.above ∘ hbc.above⟩

theorem greater_eq_or (a b : α) : greater a b = a ∨ greater a b = b := by
  unfold greater
  split
  · exact .inr rfl
  · split
    · exact .inl rfl
    · exact .inr rfl

theorem lesser_of_both {P : α → Prop} (ha : P a) (hb : P b) : P (lesser a b) := by
  rcases lesser_eq_or a b with h | h <;> rwa [h]

theorem greater_of_both {P : α → Prop} (ha : P a) (hb : P b) : P (greater a b) := by
  rcases greater_eq_or a b with h | h <;> rwa [h]

theorem lesser_isFinite (ha : isFinite a = true) (hb : isFinite b = true) :
    isFinite (lesser a b) = true :=
  lesser_of_both (P := (isFinite · = true)) ha hb

theorem greater_isFinite (ha : isFinite a = true) (hb : isFinite b = true) :
    isFinite (greater a b) = true :=
  greater_of_both (P := (isFinite · = true)) ha hb

theorem greater_eq_left (ha : a ≤ a) (h : ¬ a < b) : greater a b = a := by
  unfold greater
  rw [if_neg h, if_pos ha]

theorem greater_of_lt (h : a < b) : greater a b = b := if_pos h

variable [OrderedScalar α]

theorem le_self_of_isFinite (ha : isFinite a = true) : a ≤ a :=
  (le_self_of_lt (isFinite_eq_true.mp ha).1).2

theorem Under.of_le (h : a ≤ b) : Under a b :=
  ⟨fun hta => lt_of_lt_of_le hta h, fun hbt => lt_of_le_of_lt h hbt⟩

theorem Under.le (h : Under a b) (ha : a ≤ a) (hb : b ≤ b) : a ≤ b :=
  le_of_not_lt ha hb fun hlt => lt_irrefl b (h.below hlt)

theorem Under.number_right (h : Under a b) (hta : t < a) : b ≤ b := (le_self_of_lt (h.below hta)).2

theorem Under.number_left (h : Under a b) (hbt : b < t) : a ≤ a := (le_self_of_lt (h.above hbt)).1

theorem le_greater_left (ha : a ≤ a) : a ≤ greater a b := by
  unfold greater
  split
  · next hab => exact le_of_lt hab
  · simp [ha]

theorem lt_greater_iff : t < greater a b ↔ t < a ∨ t < b := by
  constructor
  · intro h
    rcases greater_eq_or a b with heq | heq
    · exact .inl (heq ▸ h)
    · exact .inr (heq ▸ h)
  · rintro (h | h)
    · exact lt_of_lt_of_le h (le_greater_left (le_self_of_lt h).2)
    · exact lt_of_lt_of_le h (le_greater_right (le_self_of_lt h).2)

theorem lesser_lt_iff : lesser a b < t ↔ a < t ∨ b < t := by
  constructor
  · intro h
    rcases lesser_eq_or a b with heq | heq
    · exact .inl (heq ▸ h)
    · exact .inr (heq ▸ h)
  · rintro (h | h)
    · exact lt_of_le_of_lt (lesser_le_left (le_self_of_lt h).1) h
    · exact lt_of_le_of_lt (lesser_le_right (le_self_of_lt h).1) h

end Scalar

open Scalar

/-- A scalar type between two infinities, with monotone arithmetic. -/
class MonotoneScalar (α : Type) [Scalar α] : Prop extends OrderedScalar α where
  neg_infinity_lt_infinity : -infinity < (infinity : α)
  le_infinity {a : α} : a ≤ a → a ≤ infinity
  neg_infinity_le {a : α} : a ≤ a → -infinity ≤ a
  add_under {a b c d : α} : Under a b → Under c d → Under (a + c) (b + d)
  sub_under {a b c d : α} : Under a b → Under c d → Under (a - d) (b - c)
  mul_under_of_pos {a b c : α} : 0.0 < c → Under a b → Under (a * c) (b * c)
  mul_under_of_neg {a b c : α} : c < 0.0 → Under a b → Under (b * c) (a * c)
  /-- A product with what is not a number limits nothing. -/
  mul_under_of_not_number {a b c : α} : ¬ c ≤ c → Under (a * c) (b * c)

theorem Scalar.Under.number_of_both {α : Type} [Scalar α] [MonotoneScalar α] {a b : α}
    (hab : Under a b) (hba : Under b a) (ha : a ≤ a) : b ≤ b := by
  rcases OrderedScalar.lt_or_lt MonotoneScalar.neg_infinity_lt_infinity ha with hlt | hlt
  · exact hab.number_right hlt
  · exact hba.number_left hlt

end TileTracer
