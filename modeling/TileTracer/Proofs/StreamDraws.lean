import Mathlib.Data.Nat.Find
import TileTracer.Random.Direction

namespace TileTracer.Random

namespace Stream

def skip : Nat → Stream → Stream
  | 0, s => s
  | n + 1, s => s.word.2.skip n

theorem skip_add (m n : Nat) (s : Stream) : s.skip (m + n) = (s.skip m).skip n := by
  induction m generalizing s with
  | zero => rw [Nat.zero_add, skip]
  | succ m ih => rw [Nat.succ_add, skip, skip, ih]

/-- The second stream is what is left of the first when some words have been drawn. -/
def LeadsTo (s t : Stream) : Prop := ∃ n, t = s.skip n

namespace LeadsTo

variable {s t u : Stream}

theorem refl (s : Stream) : s.LeadsTo s := ⟨0, rfl⟩

theorem unit (s : Stream) : s.LeadsTo s.unit.2 := ⟨1, rfl⟩

theorem trans (hst : s.LeadsTo t) (htu : t.LeadsTo u) : s.LeadsTo u := by
  obtain ⟨m, rfl⟩ := hst
  obtain ⟨n, rfl⟩ := htu
  exact ⟨m + n, (skip_add m n s).symm⟩

end LeadsTo

theorem skip_pending (s : Stream) : s.skip s.pending.length = { s with pending := [] } := by
  obtain ⟨key, counter, pending⟩ := s
  induction pending with
  | nil => rfl
  | cons w ws ih => exact ih

theorem skip_block (key : Key) (counter : UInt64) :
    (⟨key, counter, []⟩ : Stream).skip 16 = ⟨key, counter + 1, []⟩ :=
  skip_pending ⟨key, counter + 1, (keystream key counter).toList.drop 1⟩

theorem skip_blocks (key : Key) (counter : UInt64) (n : Nat) :
    (⟨key, counter, []⟩ : Stream).skip (16 * n) = ⟨key, counter + UInt64.ofNat n, []⟩ := by
  induction n with
  | zero => exact congrArg (Stream.mk key · []) (UInt64.add_zero counter).symm
  | succ n ih =>
      rw [Nat.mul_succ, skip_add, ih, skip_block, UInt64.ofNat_add, UInt64.add_assoc]
      rfl

/-- The counter wraps after `UInt64.size` blocks of sixteen words. -/
theorem skip_period (s : Stream) {n : Nat} (hn : s.pending.length ≤ n) :
    s.skip (n + 16 * UInt64.size) = s.skip n := by
  obtain ⟨rest, rfl⟩ := Nat.exists_eq_add_of_le hn
  have hround : (s.skip s.pending.length).skip (16 * UInt64.size) = s.skip s.pending.length := by
    rw [skip_pending, skip_blocks, show UInt64.ofNat UInt64.size = 0 from rfl, UInt64.add_zero]
  rw [Nat.add_right_comm, skip_add, skip_add, hround, ← skip_add]

theorem skip_periods (s : Stream) {n : Nat} (hn : s.pending.length ≤ n) (k : Nat) :
    s.skip (n + k * (16 * UInt64.size)) = s.skip n := by
  induction k with
  | zero => rw [Nat.zero_mul, Nat.add_zero]
  | succ k ih => rw [Nat.succ_mul, ← Nat.add_assoc, s.skip_period (by omega), ih]

end Stream

theorem cubePoint_leadsTo (s : Stream) : s.LeadsTo (cubePoint s).2 :=
  ((Stream.LeadsTo.unit s).trans (.unit _)).trans (.unit _)

def attempt (s : Stream) (k : Nat) : Vec3 Float32 := (cubePoint (s.skip (3 * k))).1

/-- The loop ends with the point drawn after `k` others, all of them refused. -/
def FirstAccepted (s : Stream) (k : Nat) : Prop :=
  accepted (attempt s k) = true ∧ ∀ j < k, accepted (attempt s j) = false

/-- What the loop returns when it ends with the point drawn after `k` others. -/
def directionAfter (s : Stream) (k : Nat) : Vec3 Float32 × Stream :=
  (attempt s k / (attempt s k).lengthSquared.sqrt, s.skip (3 * (k + 1)))

theorem skip_cubePoint (s : Stream) (n : Nat) :
    (cubePoint s).2.skip (3 * n) = s.skip (3 * (n + 1)) := by
  rw [Nat.mul_succ, Nat.add_comm (3 * n), Stream.skip_add]
  rfl

theorem attempt_cubePoint (s : Stream) (k : Nat) :
    attempt (cubePoint s).2 k = attempt s (k + 1) := by
  rw [attempt, attempt, skip_cubePoint]

theorem directionAfter_cubePoint (s : Stream) (k : Nat) :
    directionAfter (cubePoint s).2 k = directionAfter s (k + 1) := by
  rw [directionAfter, directionAfter, attempt_cubePoint, skip_cubePoint]

theorem FirstAccepted.tail {s : Stream} {k : Nat} (h : FirstAccepted s (k + 1)) :
    FirstAccepted (cubePoint s).2 k :=
  ⟨by rw [attempt_cubePoint]; exact h.1,
    fun j hj => by rw [attempt_cubePoint]; exact h.2 (j + 1) (Nat.succ_lt_succ hj)⟩

theorem FirstAccepted.head_refused {s : Stream} {k : Nat} (h : FirstAccepted s (k + 1)) :
    ¬ accepted (cubePoint s).1 = true :=
  ne_true_of_eq_false (h.2 0 (Nat.succ_pos k))

theorem FirstAccepted.unitVectorWithin_eq {s : Stream} {k tries : Nat} (h : FirstAccepted s k)
    (hk : k < tries) : unitVectorWithin tries s = directionAfter s k := by
  induction k generalizing s tries with
  | zero =>
      obtain ⟨tries, rfl⟩ := Nat.exists_eq_add_of_lt hk
      exact if_pos h.1
  | succ k ih =>
      obtain ⟨tries, rfl⟩ := Nat.exists_eq_add_of_lt hk
      rw [← directionAfter_cubePoint, ← ih h.tail (show k < k + 1 + tries by omega)]
      exact if_neg h.head_refused

/-- Behind the words of the current block the points come round, so the first accepted one is among
those of the first round. -/
theorem FirstAccepted.lt {s : Stream} {k : Nat} (h : FirstAccepted s k) :
    k < 16 * UInt64.size + s.pending.length := by
  by_contra hk
  -- One round of tries earlier, a point takes three words, so three rounds of the stream lie between.
  obtain ⟨j, rfl⟩ := Nat.exists_eq_add_of_le' (show 16 * UInt64.size ≤ k by omega)
  have hagain : attempt s (j + 16 * UInt64.size) = attempt s j := by
    rw [attempt, attempt, Nat.mul_add, s.skip_periods (by omega)]
  have hrefused := h.2 j (Nat.lt_add_of_pos_right (by decide))
  rw [← hagain, h.1] at hrefused
  exact Bool.noConfusion hrefused

/-- The limit on the tries is never what ends the loop: however many points it refuses, the
direction is made from the first one it accepts. -/
theorem unitVector_eq {s : Stream} {k : Nat} (h : FirstAccepted s k) :
    unitVector s = directionAfter s k :=
  h.unitVectorWithin_eq h.lt

theorem exists_firstAccepted {s : Stream} {k : Nat} (hk : accepted (attempt s k) = true) :
    ∃ j ≤ k, FirstAccepted s j := by
  have hsome : ∃ j, accepted (attempt s j) = true := ⟨k, hk⟩
  exact ⟨Nat.find hsome, Nat.find_min' hsome hk, Nat.find_spec hsome,
    fun j hj => Bool.eq_false_iff.mpr (Nat.find_min hsome hj)⟩

/-- Where some point is accepted, `unitVector` goes through the loop as it is without a limit. -/
theorem unitVector_loop {s : Stream} {k : Nat} (hk : accepted (attempt s k) = true) :
    unitVector s =
      let (v, rest) := cubePoint s
      if accepted v then (v / v.lengthSquared.sqrt, rest) else unitVector rest := by
  obtain ⟨j, -, hj⟩ := exists_firstAccepted hk
  rw [unitVector_eq hj]
  cases j with
  | zero => exact (if_pos hj.1).symm
  | succ j =>
      rw [← directionAfter_cubePoint, ← unitVector_eq hj.tail]
      exact (if_neg hj.head_refused).symm

theorem unitVectorWithin_leadsTo (tries : Nat) (s : Stream) :
    s.LeadsTo (unitVectorWithin tries s).2 := by
  induction tries generalizing s with
  | zero => exact .refl s
  | succ tries ih =>
      unfold unitVectorWithin
      dsimp only
      split
      · exact cubePoint_leadsTo s
      · exact (cubePoint_leadsTo s).trans (ih _)

theorem unitVector_leadsTo (s : Stream) : s.LeadsTo (unitVector s).2 :=
  unitVectorWithin_leadsTo _ s

end TileTracer.Random
