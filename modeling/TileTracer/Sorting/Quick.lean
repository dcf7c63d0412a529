import TileTracer.Sorting.Halves
import TileTracer.Sorting.Heap
import TileTracer.Sorting.Pivot

/-!
Lists are sorted by insertion if they are short and by quicksort if they are long. The outcome is
settled also for equal elements: those of short lists keep their order, those of long lists need
not.
-/

namespace TileTracer.Sorting

variable {β : Type}

def partLimit : Nat := 32

/-- Quicksort of at most `depth` divisions, one within the other; what is left after them goes
through heapsort. No element may precede `bound`: a pivot that `bound` does not precede either is
one of the least elements, and all that are equal to it come with it. -/
@[specialize] def quickSort? (precedes : β → β → Bool) :
    (depth : Nat) → (bound : Option β) → List β → Option (List β)
  | depth, bound, items =>
    if items.length ≤ partLimit then sortByHalves? precedes items
    else match depth, takeOut? items (pivotIndex precedes items) with
      | depth + 1, some (pivot, rest) =>
        if bound.any fun b => !precedes b pivot then do
          let (lower, upper) := divide (fun x => !precedes pivot x) rest
          let upper ← quickSort? precedes depth none upper
          return lower ++ pivot :: upper
        else do
          let (lower, upper) := divide (fun x => precedes x pivot) rest
          let lower ← quickSort? precedes depth bound lower
          let upper ← quickSort? precedes depth (some pivot) upper
          return lower ++ pivot :: upper
      | _, _ => some (heapSort precedes items)

/-- Every element is followed by one that satisfies `next` with it. -/
@[specialize] def isChain (next : β → β → Bool) : List β → Bool
  | x :: y :: rest => next x y && isChain next (y :: rest)
  | _ => true

def insertionLimit : Nat := 20

/-- Sorts a list. There is a result unless the test contradicts itself, which it cannot if it is
that of an order. -/
@[specialize] def sort? (precedes : β → β → Bool) (items : List β) : Option (List β) :=
  if items.length ≤ insertionLimit then some (insertionSort precedes items)
  else if isChain (fun x y => !precedes y x) items then some items
  else if isChain (fun x y => precedes y x) items then some items.reverse
  else quickSort? precedes (2 * items.length.log2) none items

theorem length_of_quickSort? {precedes : β → β → Bool} {depth : Nat} {bound : Option β}
    {items sorted : List β} (h : quickSort? precedes depth bound items = some sorted) :
    sorted.length = items.length := by
  fun_induction quickSort? precedes depth bound items generalizing sorted with
  | case1 => exact length_of_sortByHalves? h
  | case2 bound items _ depth pivot rest taken _ lower upper divided ih =>
    obtain ⟨sortedUpper, run, result⟩ := Option.bind_eq_some_iff.1 h
    cases result
    have parts := length_divide (fun x => !precedes pivot x) rest
    have whole := length_of_takeOut? taken
    simp only [divided] at parts
    simp only [List.length_append, List.length_cons, ih run]
    omega
  | case3 bound items _ depth pivot rest taken _ lower upper divided ihLower ihUpper =>
    obtain ⟨sortedLower, runLower, tail⟩ := Option.bind_eq_some_iff.1 h
    obtain ⟨sortedUpper, runUpper, result⟩ := Option.bind_eq_some_iff.1 tail
    cases result
    have parts := length_divide (fun x => precedes x pivot) rest
    have whole := length_of_takeOut? taken
    simp only [divided] at parts
    simp only [List.length_append, List.length_cons, ihLower runLower, ihUpper runUpper]
    omega
  | case4 => exact Option.some.inj h ▸ length_heapSort ..

theorem length_of_sort? {precedes : β → β → Bool} {items sorted : List β}
    (h : sort? precedes items = some sorted) : sorted.length = items.length := by
  unfold sort? at h
  split at h
  · exact Option.some.inj h ▸ length_insertionSort ..
  split at h
  · exact Option.some.inj h ▸ rfl
  split at h
  · exact Option.some.inj h ▸ List.length_reverse
  · exact length_of_quickSort? h

end TileTracer.Sorting
