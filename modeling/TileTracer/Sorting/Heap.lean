namespace TileTracer.Sorting

variable {β : Type}

inductive Heap (β : Type) where
  | leaf
  | node (top : β) (left right : Heap β)

namespace Heap

def top? : Heap β → Option β
  | leaf => none
  | node top _ _ => some top

def toList : Heap β → List β
  | leaf => []
  | node top left right => top :: (left.toList ++ right.toList)

/-- Deals the rows of a tree out to its left and its right part, from a row of twice `2 ^ depth`
elements on. -/
def dealRows (depth : Nat) (items : List β) : List β × List β :=
  if items.isEmpty then ([], [])
  else
    let width := Nat.pow 2 depth
    let (left, right) := dealRows (depth + 1) (items.drop (2 * width))
    (items.take width ++ left, (items.drop width).take width ++ right)
termination_by items.length
decreasing_by
  have : 0 < Nat.pow 2 depth := Nat.two_pow_pos depth
  have := List.length_pos_iff.2 (mt List.isEmpty_iff.2 ‹_›)
  simp only [List.length_drop]
  omega

theorem length_dealRows (depth : Nat) (items : List β) :
    (dealRows depth items).1.length + (dealRows depth items).2.length = items.length := by
  fun_induction dealRows depth items with
  | case1 _ items h => simp [List.isEmpty_iff.1 h]
  | case2 depth items _ width left right dealt ih =>
    simp only [dealt, List.length_drop] at ih
    simp only [List.length_append, List.length_take, List.length_drop]
    omega

/-- The tree whose rows, one after the other, are a list. -/
def ofList : List β → Heap β
  | [] => leaf
  | x :: rest => node x (ofList (dealRows 0 rest).1) (ofList (dealRows 0 rest).2)
termination_by items => items.length
decreasing_by
  all_goals have := length_dealRows 0 rest
  all_goals simp only [List.length_cons]
  all_goals omega

/-- Replaces the top by `x` and lets `x` sink: it changes places with the later of the two elements
below it, the left one of two equals, for as long as `x` precedes that element. -/
@[specialize] def sink (precedes : β → β → Bool) (x : β) : Heap β → Heap β
  | leaf => leaf
  | node _ left right =>
    match left.top?, right.top? with
    | none, _ => node x left right
    | some y, none =>
      if precedes x y then node y (sink precedes x left) right else node x left right
    | some y, some z =>
      if precedes y z then
        if precedes x z then node z left (sink precedes x right) else node x left right
      else if precedes x y then node y (sink precedes x left) right
      else node x left right

@[specialize] def settle (precedes : β → β → Bool) : Heap β → Heap β
  | leaf => leaf
  | node x left right =>
    sink precedes x (node x (settle precedes left) (settle precedes right))

/-- The turns that lead from the top to a position; `true` stands for the right. -/
def path (index : Nat) : List Bool :=
  if index = 0 then [] else path ((index - 1) / 2) ++ [decide (index % 2 = 0)]
termination_by index

def takeAt? : List Bool → Heap β → Option (β × Heap β)
  | [], node x leaf leaf => some (x, leaf)
  | false :: turns, node x left right =>
    (takeAt? turns left).map fun (y, left) => (y, node x left right)
  | true :: turns, node x left right =>
    (takeAt? turns right).map fun (y, right) => (y, node x left right)
  | _, _ => none

/-- Moves `count` elements, one after the other, from the top of the heap to the front of a list.
Into the place of the top comes the last element of the last row, which then sinks. -/
@[specialize] def drain (precedes : β → β → Bool) : (count : Nat) → Heap β → List β → List β
  | 0, heap, done => heap.toList ++ done
  | count + 1, heap, done =>
    match heap.top?, takeAt? (path count) heap with
    | some top, some (last, rest) =>
      drain precedes count (sink precedes last rest) (top :: done)
    | _, _ => heap.toList ++ done

end Heap

@[specialize] def heapSort (precedes : β → β → Bool) (items : List β) : List β :=
  Heap.drain precedes items.length (Heap.settle precedes (Heap.ofList items)) []

namespace Heap

theorem length_ofList (items : List β) : (ofList items).toList.length = items.length := by
  fun_induction ofList items with
  | case1 => rfl
  | case2 x rest ihLeft ihRight =>
    have := length_dealRows 0 rest
    simp only [toList, List.length_cons, List.length_append, ihLeft, ihRight]
    omega

theorem length_sink (precedes : β → β → Bool) (x : β) (heap : Heap β) :
    (sink precedes x heap).toList.length = heap.toList.length := by
  fun_induction sink precedes x heap <;> simp_all [toList]

theorem length_settle (precedes : β → β → Bool) (heap : Heap β) :
    (settle precedes heap).toList.length = heap.toList.length := by
  induction heap with
  | leaf => rfl
  | node x left right ihLeft ihRight =>
    simp [settle, length_sink, toList, ihLeft, ihRight]

theorem length_of_takeAt? {turns : List Bool} {heap rest : Heap β} {x : β}
    (h : takeAt? turns heap = some (x, rest)) :
    rest.toList.length + 1 = heap.toList.length := by
  fun_induction takeAt? turns heap generalizing x rest with
  | case1 =>
    cases h
    rfl
  | case2 _ y left right ih =>
    obtain ⟨⟨_, left'⟩, taken, result⟩ := Option.map_eq_some_iff.1 h
    cases result
    have := ih taken
    simp only [toList, List.length_cons, List.length_append]
    omega
  | case3 _ y left right ih =>
    obtain ⟨⟨_, right'⟩, taken, result⟩ := Option.map_eq_some_iff.1 h
    cases result
    have := ih taken
    simp only [toList, List.length_cons, List.length_append]
    omega
  | case4 => simp at h

theorem length_drain (precedes : β → β → Bool) (count : Nat) (heap : Heap β) (done : List β) :
    (drain precedes count heap done).length = heap.toList.length + done.length := by
  fun_induction drain precedes count heap done with
  | case1 => exact List.length_append
  | case2 _ _ _ _ _ _ taken _ ih =>
    have := length_of_takeAt? taken
    rw [ih, length_sink, List.length_cons]
    omega
  | case3 => exact List.length_append

end Heap

theorem length_heapSort (precedes : β → β → Bool) (items : List β) :
    (heapSort precedes items).length = items.length := by
  simp [heapSort, Heap.length_drain, Heap.length_settle, Heap.length_ofList]

end TileTracer.Sorting
