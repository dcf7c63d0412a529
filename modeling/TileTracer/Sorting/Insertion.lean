/-!
All sorts of this library are given a test `precedes x y`, which says that `x` must stand before
`y`. Of two elements neither need precede the other.
-/

namespace TileTracer.Sorting

variable {β : Type}

/-- Inserts into a list that is held in reverse: `x` moves past every element it precedes. -/
@[specialize] def insertReversed (precedes : β → β → Bool) (x : β) : List β → List β
  | [] => [x]
  | y :: ys => if precedes x y then y :: insertReversed precedes x ys else x :: y :: ys

@[specialize] def insertAll (precedes : β → β → Bool) (ordered items : List β) : List β :=
  (items.foldl (fun done x => insertReversed precedes x done) ordered.reverse).reverse

/-- Stable insertion sort. Elements that precede each other in neither order keep their order
relative to the neighbours that they have moved up to. -/
@[specialize] def insertionSort (precedes : β → β → Bool) (items : List β) : List β :=
  insertAll precedes [] items

theorem length_insertReversed (precedes : β → β → Bool) (x : β) (l : List β) :
    (insertReversed precedes x l).length = l.length + 1 := by
  induction l with
  | nil => rfl
  | cons y ys ih =>
    unfold insertReversed
    split <;> simp [ih]

theorem length_insertAll (precedes : β → β → Bool) (ordered items : List β) :
    (insertAll precedes ordered items).length = ordered.length + items.length := by
  have fold (l done : List β) :
      (l.foldl (fun done x => insertReversed precedes x done) done).length =
        done.length + l.length := by
    induction l generalizing done with
    | nil => simp
    | cons x l ih =>
      rw [List.foldl_cons, ih, length_insertReversed, List.length_cons]
      omega
  simp [insertAll, fold]

theorem length_insertionSort (precedes : β → β → Bool) (items : List β) :
    (insertionSort precedes items).length = items.length := by
  simp [insertionSort, length_insertAll]

end TileTracer.Sorting
