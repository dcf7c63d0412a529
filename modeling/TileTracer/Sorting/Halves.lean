import TileTracer.Sorting.Insertion

/-!
Short lists are sorted half by half. The halves are then merged from both ends at once, each end
giving half of the result. If the test is not that of an order, the two ends may not meet; there is
no result then.
-/

namespace TileTracer.Sorting

variable {β : Type}

/-- Two elements, the second of which comes first only if it must. -/
@[specialize] def inOrder (precedes : β → β → Bool) (x y : β) : List β :=
  if precedes y x then [y, x] else [x, y]

/-- Four elements in order, by five tests: within the first two and the last two, between the heads
and the tails of these pairs, and between the two elements that are neither first nor last. -/
@[specialize] def sortFour (precedes : β → β → Bool) (w x y z : β) : List β :=
  let (a, b) := if precedes x w then (x, w) else (w, x)
  let (c, d) := if precedes z y then (z, y) else (y, z)
  match precedes c a, precedes d b with
  | false, false => a :: inOrder precedes b c ++ [d]
  | false, true => a :: inOrder precedes c d ++ [b]
  | true, false => c :: inOrder precedes a b ++ [d]
  | true, true => c :: inOrder precedes a d ++ [b]

/-- Sorts one half of a list by insertion. If the whole list is long enough, the first four elements
are put in order at once. -/
@[specialize] def sortHalf (precedes : β → β → Bool) (long : Bool) : List β → List β
  | w :: x :: y :: z :: rest =>
    if long then insertAll precedes (sortFour precedes w x y z) rest
    else insertionSort precedes (w :: x :: y :: z :: rest)
  | items => insertionSort precedes items

/-- Takes a number of elements off the fronts of two lists, from the second list only what precedes
the front of the first. Gives what was taken and what is left of both. -/
@[specialize] def takeFronts (precedes : β → β → Bool) :
    Nat → List β → List β → List β × List β × List β
  | n + 1, x :: xs, y :: ys =>
    if precedes y x then
      let (taken, rests) := takeFronts precedes n (x :: xs) ys
      (y :: taken, rests)
    else
      let (taken, rests) := takeFronts precedes n xs (y :: ys)
      (x :: taken, rests)
  | _, xs, ys => ([], xs, ys)

/-- Merges two halves from both ends. In the middle stands what neither end has taken; `none` if
that does not make up a list of all elements. -/
@[specialize] def mergeInward? (precedes : β → β → Bool) (left right : List β) :
    Option (List β) :=
  let half := (left.length + right.length) / 2
  let (front, left₁, right₁) := takeFronts precedes half left right
  let (back, right₂, left₂) :=
    takeFronts (fun x y => precedes y x) half right.reverse left.reverse
  let untaken (l l₁ l₂ : List β) : List β := l₁.take (l₁.length + l₂.length - l.length)
  let merged := front ++ untaken left left₁ left₂ ++ untaken right right₁ right₂ ++ back.reverse
  if merged.length = left.length + right.length then some merged else none

def longEnough : Nat := 8

@[specialize] def sortByHalves? (precedes : β → β → Bool) (items : List β) : Option (List β) :=
  let long := decide (longEnough ≤ items.length)
  mergeInward? precedes (sortHalf precedes long (items.take (items.length / 2)))
    (sortHalf precedes long (items.drop (items.length / 2)))

theorem length_inOrder (precedes : β → β → Bool) (x y : β) :
    (inOrder precedes x y).length = 2 := by
  unfold inOrder
  split <;> rfl

theorem length_sortFour (precedes : β → β → Bool) (w x y z : β) :
    (sortFour precedes w x y z).length = 4 := by
  unfold sortFour
  dsimp only
  split <;> simp [length_inOrder]

theorem length_sortHalf (precedes : β → β → Bool) (long : Bool) (items : List β) :
    (sortHalf precedes long items).length = items.length := by
  unfold sortHalf
  split
  · split
    · simp only [length_insertAll, length_sortFour, List.length_cons]
      omega
    · exact length_insertionSort ..
  · exact length_insertionSort ..

theorem length_of_mergeInward? {precedes : β → β → Bool} {left right merged : List β}
    (h : mergeInward? precedes left right = some merged) :
    merged.length = left.length + right.length := by
  unfold mergeInward? at h
  dsimp only at h
  split at h
  · next length => exact Option.some.inj h ▸ length
  · exact absurd h (by simp)

theorem length_of_sortByHalves? {precedes : β → β → Bool} {items sorted : List β}
    (h : sortByHalves? precedes items = some sorted) : sorted.length = items.length := by
  have length := length_of_mergeInward? h
  simp only [length_sortHalf, List.length_take, List.length_drop] at length
  omega

end TileTracer.Sorting
