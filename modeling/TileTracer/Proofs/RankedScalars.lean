import Mathlib
import TileTracer.Proofs.MonotoneScalars

/-!
Where each number has a rank and comparing numbers is comparing ranks, the numbers are ordered, and
a limit is as good as its rank. What is not a number has no rank: as a limit from below it stands
below all numbers, and as a limit from above it stands above them.
-/

namespace TileTracer

open Scalar

/-- Comparing two numbers is comparing their ranks. -/
structure Ranking {α : Type} [Scalar α] {β : Type} [LinearOrder β] (rank? : α → Option β) : Prop where
  lt_iff {a b : α} : a < b ↔ ∃ x y, rank? a = some x ∧ rank? b = some y ∧ x < y
  le_iff {a b : α} : a ≤ b ↔ ∃ x y, rank? a = some x ∧ rank? b = some y ∧ x ≤ y

namespace Ranking

variable {α β : Type} [Scalar α] [LinearOrder β] {rank? : α → Option β} {a b : α} {x y low high : β}

theorem le_self_iff (h : Ranking rank?) : a ≤ a ↔ ∃ x, rank? a = some x := by
  rw [h.le_iff]
  constructor
  · rintro ⟨x, _, hx, _, _⟩
    exact ⟨x, hx⟩
  · rintro ⟨x, hx⟩
    exact ⟨x, x, hx, hx, le_rfl⟩

theorem lt_iff_of_rank (h : Ranking rank?) (hx : rank? a = some x) (hy : rank? b = some y) :
    a < b ↔ x < y := by
  rw [h.lt_iff]
  constructor
  · rintro ⟨x', y', hx', hy', hlt⟩
    cases hx.symm.trans hx'
    cases hy.symm.trans hy'
    exact hlt
  · exact fun hlt => ⟨x, y, hx, hy, hlt⟩

theorem le_iff_of_rank (h : Ranking rank?) (hx : rank? a = some x) (hy : rank? b = some y) :
    a ≤ b ↔ x ≤ y := by
  rw [h.le_iff]
  constructor
  · rintro ⟨x', y', hx', hy', hle⟩
    cases hx.symm.trans hx'
    cases hy.symm.trans hy'
    exact hle
  · exact fun hle => ⟨x, y, hx, hy, hle⟩

theorem orderedScalar (h : Ranking rank?) : OrderedScalar α where
  lt_irrefl a hlt := by
    obtain ⟨x, y, hx, hy, hxy⟩ := h.lt_iff.mp hlt
    cases hx.symm.trans hy
    exact lt_irrefl x hxy
  lt_trans hab hbc := by
    obtain ⟨x, y, hx, hy, hxy⟩ := h.lt_iff.mp hab
    obtain ⟨y', z, hy', hz, hyz⟩ := h.lt_iff.mp hbc
    cases hy.symm.trans hy'
    exact h.lt_iff.mpr ⟨x, z, hx, hz, lt_trans hxy hyz⟩
  lt_or_lt hac hb := by
    obtain ⟨x, z, hx, hz, hxz⟩ := h.lt_iff.mp hac
    obtain ⟨y, hy⟩ := h.le_self_iff.mp hb
    rcases lt_or_ge x y with hxy | hyx
    · exact .inl (h.lt_iff.mpr ⟨x, y, hx, hy, hxy⟩)
    · exact .inr (h.lt_iff.mpr ⟨y, z, hy, hz, hyx.trans_lt hxz⟩)
  le_self_of_lt hlt := by
    obtain ⟨x, y, hx, hy, -⟩ := h.lt_iff.mp hlt
    exact ⟨h.le_self_iff.mpr ⟨x, hx⟩, h.le_self_iff.mpr ⟨y, hy⟩⟩
  le_iff := by
    intro a b
    constructor
    · intro hle
      obtain ⟨x, y, hx, hy, hxy⟩ := h.le_iff.mp hle
      refine ⟨h.le_self_iff.mpr ⟨x, hx⟩, h.le_self_iff.mpr ⟨y, hy⟩, ?_⟩
      rw [h.lt_iff_of_rank hy hx]
      exact not_lt_of_ge hxy
    · rintro ⟨ha, hb, hnot⟩
      obtain ⟨x, hx⟩ := h.le_self_iff.mp ha
      obtain ⟨y, hy⟩ := h.le_self_iff.mp hb
      rw [h.lt_iff_of_rank hy hx] at hnot
      exact h.le_iff.mpr ⟨x, y, hx, hy, le_of_not_gt hnot⟩

/-- One value limits as another does if their ranks do, as limits from below and from above. -/
theorem under_iff (h : Ranking rank?) (hlow : rank? (-infinity) = some low)
    (hhigh : rank? infinity = some high)
    (hbetween : ∀ {a x}, rank? a = some x → low ≤ x ∧ x ≤ high) :
    Under a b ↔ (rank? a).getD low ≤ (rank? b).getD low ∧
      (rank? a).getD high ≤ (rank? b).getD high := by
  have hinside (c : α) : low ≤ (rank? c).getD low ∧ (rank? c).getD high ≤ high := by
    cases hc : rank? c with
    | none => exact ⟨le_rfl, le_rfl⟩
    | some x => exact hbetween hc
  constructor
  · intro hunder
    constructor
    · by_contra hlt
      cases ha : rank? a with
      | none =>
          rw [ha] at hlt
          exact hlt (hinside b).1
      | some x =>
          rw [ha, Option.getD_some, not_le] at hlt
          -- A limit below this one would admit a value that this one excludes.
          cases hb : rank? b with
          | none =>
              rw [hb] at hlt
              obtain ⟨_, y, _, hy, _⟩ :=
                h.lt_iff.mp (hunder.below (h.lt_iff.mpr ⟨low, x, hlow, ha, hlt⟩))
              cases hb.symm.trans hy
          | some y =>
              rw [hb] at hlt
              have hself := hunder.below (h.lt_iff.mpr ⟨y, x, hb, ha, hlt⟩)
              exact lt_irrefl y ((h.lt_iff_of_rank hb hb).mp hself)
    · by_contra hlt
      cases hb : rank? b with
      | none =>
          rw [hb] at hlt
          exact hlt (hinside a).2
      | some y =>
          rw [hb, Option.getD_some, not_le] at hlt
          cases ha : rank? a with
          | none =>
              rw [ha] at hlt
              obtain ⟨x, _, hx, _, _⟩ :=
                h.lt_iff.mp (hunder.above (h.lt_iff.mpr ⟨y, high, hb, hhigh, hlt⟩))
              cases ha.symm.trans hx
          | some x =>
              rw [ha] at hlt
              have hself := hunder.above (h.lt_iff.mpr ⟨y, x, hb, ha, hlt⟩)
              exact lt_irrefl x ((h.lt_iff_of_rank ha ha).mp hself)
  · rintro ⟨hlowest, hhighest⟩
    constructor
    · intro t ht
      obtain ⟨z, x, hz, ha, hzx⟩ := h.lt_iff.mp ht
      rw [ha, Option.getD_some] at hlowest
      cases hb : rank? b with
      | none =>
          rw [hb] at hlowest
          exact absurd (hbetween hz).1 (not_le_of_gt (hzx.trans_le hlowest))
      | some y =>
          rw [hb] at hlowest
          exact h.lt_iff.mpr ⟨z, y, hz, hb, hzx.trans_le hlowest⟩
    · intro t ht
      obtain ⟨y, z, hb, hz, hyz⟩ := h.lt_iff.mp ht
      rw [hb, Option.getD_some] at hhighest
      cases ha : rank? a with
      | none =>
          rw [ha] at hhighest
          exact absurd (hbetween hz).2 (not_le_of_gt (hhighest.trans_lt hyz))
      | some x =>
          rw [ha] at hhighest
          exact h.lt_iff.mpr ⟨x, z, ha, hz, hhighest.trans_lt hyz⟩

end Ranking

end TileTracer
