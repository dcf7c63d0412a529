import Mathlib.Data.UInt

namespace TileTracer.Words

/-! Arithmetic in words of 32 bits that is refused where it would wrap around. -/

def sum? (a b : UInt32) : Option UInt32 :=
  if a.toNat + b.toNat < 2 ^ 32 then some (a + b) else none

def product? (a b : UInt32) : Option UInt32 :=
  if a.toNat * b.toNat < 2 ^ 32 then some (a * b) else none

def predecessor? (a : UInt32) : Option UInt32 := if a = 0 then none else some (a - 1)

theorem product?_eq {a b : UInt32} (h : a.toNat * b.toNat < 2 ^ 32) :
    ∃ p, product? a b = some p ∧ p.toNat = a.toNat * b.toNat :=
  ⟨_, if_pos h, (UInt32.toNat_mul a b).trans (Nat.mod_eq_of_lt h)⟩

theorem sum?_eq {a b : UInt32} (h : a.toNat + b.toNat < 2 ^ 32) :
    ∃ p, sum? a b = some p ∧ p.toNat = a.toNat + b.toNat :=
  ⟨_, if_pos h, (UInt32.toNat_add a b).trans (Nat.mod_eq_of_lt h)⟩

def ofNat? (n : Nat) : Option UInt32 := if n < 2 ^ 32 then some n.toUInt32 else none

/-- The result of an operation on words for two numbers; `none` if one of them is no word. -/
def onNat? (op : UInt32 → UInt32 → Option UInt32) (a b : Nat) : Option Nat := do
  let a ← ofNat? a
  let b ← ofNat? b
  (op a b).map UInt32.toNat

theorem toNat_toUInt32 {n : Nat} (h : n < 2 ^ 32) : n.toUInt32.toNat = n :=
  UInt32.toNat_ofNat_of_lt' h

theorem ofNat?_eq {n : Nat} (h : n < 2 ^ 32) : ofNat? n = some n.toUInt32 :=
  if_pos h

theorem ofNat?_of_le {n : Nat} (h : 2 ^ 32 ≤ n) : ofNat? n = none :=
  if_neg (Nat.not_lt_of_le h)

theorem onNat?_eq {op : UInt32 → UInt32 → Option UInt32} {a b : Nat} (ha : a < 2 ^ 32)
    (hb : b < 2 ^ 32) : onNat? op a b = (op a.toUInt32 b.toUInt32).map UInt32.toNat := by
  rw [onNat?, ofNat?_eq ha, ofNat?_eq hb]
  rfl

theorem onNat?_sum? (a b : Nat) :
    onNat? sum? a b = if a + b < 2 ^ 32 then some (a + b) else none := by
  by_cases hab : a < 2 ^ 32 ∧ b < 2 ^ 32
  · obtain ⟨ha, hb⟩ := hab
    rw [onNat?_eq ha hb, sum?, toNat_toUInt32 ha, toNat_toUInt32 hb]
    split
    · rename_i hsum
      rw [Option.map_some, UInt32.toNat_add, toNat_toUInt32 ha, toNat_toUInt32 hb,
        Nat.mod_eq_of_lt hsum]
    · rfl
  · have hsum : ¬ a + b < 2 ^ 32 := by omega
    rw [if_neg hsum, onNat?]
    by_cases ha : a < 2 ^ 32
    · rw [ofNat?_eq ha, ofNat?_of_le (n := b) (by omega)]
      rfl
    · rw [ofNat?_of_le (Nat.le_of_not_lt ha)]
      rfl

theorem onNat?_product? {a b : Nat} (ha : a < 2 ^ 32) (hb : b < 2 ^ 32) :
    onNat? product? a b = if a * b < 2 ^ 32 then some (a * b) else none := by
  rw [onNat?_eq ha hb, product?, toNat_toUInt32 ha, toNat_toUInt32 hb]
  split
  · rename_i hproduct
    rw [Option.map_some, UInt32.toNat_mul, toNat_toUInt32 ha, toNat_toUInt32 hb,
      Nat.mod_eq_of_lt hproduct]
  · rfl

def successor64? (n : Nat) : Option Nat :=
  if n + 1 < 2 ^ 64 then some (n.toUInt64 + 1).toNat else none

theorem successor64?_eq {n : Nat} (h : n + 1 < 2 ^ 64) : successor64? n = some (n + 1) := by
  have hn : n.toUInt64.toNat = n := UInt64.toNat_ofNat_of_lt' (Nat.lt_of_succ_lt h)
  rw [successor64?, if_pos h, UInt64.toNat_add, hn]
  exact congrArg some (Nat.mod_eq_of_lt h)

end TileTracer.Words
