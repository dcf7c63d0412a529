import Mathlib.Data.List.Nodup
import Mathlib.Data.Nat.Init

namespace TileTracer.ArrayWrites

variable {β : Type}

theorem row_index_lt {width height row column : Nat} (hcolumn : column < width)
    (hrow : row < height) : row * width + column < width * height := by
  rw [Nat.mul_comm row, Nat.mul_comm width height]
  exact Nat.mul_add_lt_mul_of_lt_of_lt hrow hcolumn

/-- Writes values at positions, one after the other; a position beyond the end is left out. -/
def scatter (writes : List (Nat × β)) (a : Array β) : Array β :=
  writes.foldl (fun a w => a.setIfInBounds w.1 w.2) a

@[simp] theorem scatter_cons (w : Nat × β) (writes : List (Nat × β)) (a : Array β) :
    scatter (w :: writes) a = scatter writes (a.setIfInBounds w.1 w.2) := rfl

theorem scatter_append (first second : List (Nat × β)) (a : Array β) :
    scatter (first ++ second) a = scatter second (scatter first a) :=
  List.foldl_append

@[simp] theorem size_scatter (writes : List (Nat × β)) (a : Array β) :
    (scatter writes a).size = a.size := by
  induction writes generalizing a with
  | nil => rfl
  | cons w writes ih => simp [ih]

theorem getElem?_scatter_of_agree {writes : List (Nat × β)} {a : Array β} {j : Nat} {b : β}
    (hstart : a[j]? = some b) (hagree : ∀ w ∈ writes, w.1 = j → w.2 = b) :
    (scatter writes a)[j]? = some b := by
  induction writes generalizing a with
  | nil => exact hstart
  | cons w writes ih =>
      rw [scatter_cons]
      apply ih
      · rw [Array.getElem?_setIfInBounds]
        split
        · rename_i hj
          have hlt : w.1 < a.size := hj ▸ (Array.getElem?_eq_some_iff.mp hstart).1
          rw [if_pos hlt, hagree w List.mem_cons_self hj]
        · exact hstart
      · exact fun v hv => hagree v (List.mem_cons_of_mem w hv)

/-- A position that is written takes the value that all writes to it have in common. -/
theorem getElem?_scatter_of_mem {writes : List (Nat × β)} {a : Array β} {j : Nat} {b : β}
    (hlt : j < a.size) (hwritten : ∃ w ∈ writes, w.1 = j)
    (hagree : ∀ w ∈ writes, w.1 = j → w.2 = b) :
    (scatter writes a)[j]? = some b := by
  induction writes generalizing a with
  | nil => simp at hwritten
  | cons w writes ih =>
      have hrest : ∀ v ∈ writes, v.1 = j → v.2 = b :=
        fun v hv => hagree v (List.mem_cons_of_mem w hv)
      rw [scatter_cons]
      by_cases hw : w.1 = j
      · apply getElem?_scatter_of_agree _ hrest
        rw [Array.getElem?_setIfInBounds, if_pos hw, if_pos (hw ▸ hlt),
          hagree w List.mem_cons_self hw]
      · apply ih (by simpa using hlt) _ hrest
        obtain ⟨v, hv, hvj⟩ := hwritten
        rcases List.mem_cons.mp hv with rfl | hv
        · exact absurd hvj hw
        · exact ⟨v, hv, hvj⟩

/-- If every position is written, and always with the value of one function there, then the
array is that function, whatever it held before. -/
theorem scatter_eq_ofFn {n : Nat} {writes : List (Nat × β)} {a : Array β} (f : Nat → β)
    (hsize : a.size = n) (hwritten : ∀ j < n, ∃ w ∈ writes, w.1 = j)
    (hagree : ∀ w ∈ writes, w.2 = f w.1) :
    scatter writes a = Array.ofFn fun j : Fin n => f j := by
  apply Array.ext_getElem?
  intro j
  by_cases hj : j < n
  · rw [getElem?_scatter_of_mem (b := f j) (hsize ▸ hj) (hwritten j hj)
      (fun w hw hwj => hwj ▸ hagree w hw)]
    simp [hj]
  · have hlarge : n ≤ j := Nat.le_of_not_lt hj
    rw [Array.getElem?_eq_none (by simpa [hsize] using hlarge),
      Array.getElem?_eq_none (by simpa using hlarge)]

theorem modify_eq_self {a : Array β} {i : Nat} (h : a[i]? = none) (f : β → β) :
    a.modify i f = a := by
  apply Array.ext_getElem?
  intro j
  rw [Array.getElem?_modify]
  split
  · rename_i hij
    rw [← hij, h, Option.map_none]
  · rfl

theorem setIfInBounds_eq_modify {a : Array β} {i : Nat} {b : β} (h : a[i]? = some b)
    (f : β → β) : a.setIfInBounds i (f b) = a.modify i f := by
  apply Array.ext_getElem?
  intro j
  rw [Array.getElem?_modify, Array.getElem?_setIfInBounds]
  split
  · rename_i hij
    rw [← hij, h, Option.map_some, if_pos (Array.getElem?_eq_some_iff.mp h).1]
  · rfl

theorem forall_mem_modify {P : β → Prop} {a : Array β} {f : β → β} (h : ∀ b ∈ a, P b)
    (hf : ∀ b ∈ a, P (f b)) (i : Nat) : ∀ b ∈ a.modify i f, P b := by
  intro b hb
  obtain ⟨j, hj⟩ := Array.mem_iff_getElem?.mp hb
  rw [Array.getElem?_modify] at hj
  split at hj
  · obtain ⟨c, hc, rfl⟩ := Option.map_eq_some_iff.mp hj
    exact hf c (Array.mem_of_getElem? hc)
  · exact h b (Array.mem_of_getElem? hj)

theorem getElem?_foldl_modify (f : Nat → β → β) {order : List Nat} (hnodup : order.Nodup)
    (a : Array β) (j : Nat) :
    (order.foldl (fun a i => a.modify i (f i)) a)[j]? =
      if j ∈ order then a[j]?.map (f j) else a[j]? := by
  induction order generalizing a with
  | nil => simp
  | cons i order ih =>
      obtain ⟨hi, horder⟩ := List.nodup_cons.mp hnodup
      rw [List.foldl_cons, ih horder, Array.getElem?_modify]
      by_cases hj : i = j
      · subst hj
        simp [hi]
      · simp [hj, Ne.symm hj]

/-- Changing every element once, each by a function of its own, comes to the same in every
order. -/
theorem foldl_modify_of_perm (f : Nat → β → β) {order : List Nat} {a : Array β}
    (hperm : order.Perm (List.range a.size)) :
    order.foldl (fun a i => a.modify i (f i)) a = a.mapIdx f := by
  apply Array.ext_getElem?
  intro j
  rw [getElem?_foldl_modify f (hperm.nodup_iff.mpr List.nodup_range), Array.getElem?_mapIdx]
  split
  · rfl
  · rename_i hj
    rw [hperm.mem_iff, List.mem_range] at hj
    rw [Array.getElem?_eq_none (Nat.le_of_not_lt hj)]
    rfl

end TileTracer.ArrayWrites
