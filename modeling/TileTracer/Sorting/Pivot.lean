/-!
A long list is divided at an element near its middle: before it come the elements below, behind it
all others. The order within both parts is that of a cycle of exchanges in place, so that it is
settled also among elements that are equal.
-/

namespace TileTracer.Sorting

variable {β : Type}

@[inline] def median (precedes : Nat → Nat → Bool) (a b c : Nat) : Nat :=
  if precedes a b == precedes a c then
    if precedes b c == precedes a b then b else c
  else a

/-- The position of an element near the middle of the eight blocks of `width` elements from `start`
on: the median of the starts of the first, fifth and eighth block or, in wide blocks, of elements
near their middles. -/
def middle (precedes : Nat → Nat → Bool) (width start : Nat) : Nat :=
  if 8 ≤ width then
    median precedes (middle precedes (width / 8) start)
      (middle precedes (width / 8) (start + 4 * width))
      (middle precedes (width / 8) (start + 7 * width))
  else median precedes start (start + 4 * width) (start + 7 * width)
termination_by width

@[specialize] def pivotIndex (precedes : β → β → Bool) (items : List β) : Nat :=
  let items := items.toArray
  middle (fun i j => match items[i]?, items[j]? with
    | some x, some y => precedes x y
    | _, _ => false) (items.size / 8) 0

/-- Takes out the element at a position; the first one moves into its place. -/
def takeOut? (items : List β) (index : Nat) : Option (β × List β) :=
  match items, index with
  | [], _ => none
  | first :: rest, 0 => some (first, rest)
  | first :: rest, i + 1 => rest[i]?.map fun x => (x, rest.set i first)

structure Parts (β : Type) where
  /-- The elements below the pivot, held in reverse. -/
  lower : List β
  /-- The first of the other elements. -/
  front : List β
  /-- The last of the other elements, held in reverse. -/
  back : List β

namespace Parts

def upper (parts : Parts β) : List β := parts.front ++ parts.back.reverse

def rotate (parts : Parts β) : Parts β :=
  match parts.front with
  | x :: front => { parts with front, back := x :: parts.back }
  | [] => match parts.back.reverse with
    | x :: front => { parts with front, back := [x] }
    | [] => parts

/-- Adds an element at the end of the lower part, or at the start of the upper part. Either way the
first element of the upper part has made room for it. -/
@[inline] def place (below : β → Bool) (parts : Parts β) (x : β) : Parts β :=
  let parts := parts.rotate
  if below x then { parts with lower := x :: parts.lower }
  else { parts with front := x :: parts.front }

end Parts

/-- The elements below the pivot and the others. The first element is placed last, and at the end
the last one of the lower part changes places with the pivot in front. -/
@[specialize] def divide (below : β → Bool) (items : List β) : List β × List β :=
  let parts := (items.drop 1 ++ items.take 1).foldl (Parts.place below) ⟨[], [], []⟩
  (parts.lower.take 1 ++ (parts.lower.drop 1).reverse, parts.upper)

theorem length_of_takeOut? {items rest : List β} {index : Nat} {x : β}
    (h : takeOut? items index = some (x, rest)) : rest.length + 1 = items.length := by
  unfold takeOut? at h
  split at h
  · exact absurd h (by simp)
  · simp_all
  · obtain ⟨y, _, hy⟩ := Option.map_eq_some_iff.1 h
    obtain ⟨_, rfl⟩ := Prod.mk.inj hy
    simp

theorem Parts.lower_rotate (parts : Parts β) : parts.rotate.lower = parts.lower := by
  unfold rotate
  split
  · rfl
  · split <;> rfl

theorem Parts.length_upper_rotate (parts : Parts β) :
    parts.rotate.upper.length = parts.upper.length := by
  unfold rotate
  split
  · next x front hf =>
    simp [upper, hf]
    omega
  · next hf =>
    split
    · next x front hb =>
      have := congrArg List.length hb
      simp [upper, hf] at this ⊢
      omega
    · rfl

theorem Parts.length_place (below : β → Bool) (parts : Parts β) (x : β) :
    (parts.place below x).lower.length + (parts.place below x).upper.length =
      parts.lower.length + parts.upper.length + 1 := by
  have upper := parts.length_upper_rotate
  simp only [Parts.upper, List.length_append, List.length_reverse] at upper
  unfold place
  dsimp only
  split <;>
    simp only [Parts.upper, lower_rotate, List.length_cons, List.length_append,
      List.length_reverse] <;>
    omega

theorem length_divide (below : β → Bool) (items : List β) :
    (divide below items).1.length + (divide below items).2.length = items.length := by
  have fold (l : List β) (parts : Parts β) :
      (l.foldl (Parts.place below) parts).lower.length +
          (l.foldl (Parts.place below) parts).upper.length =
        parts.lower.length + parts.upper.length + l.length := by
    induction l generalizing parts with
    | nil => simp
    | cons x l ih =>
      rw [List.foldl_cons, ih, Parts.length_place, List.length_cons]
      omega
  have total := fold (items.drop 1 ++ items.take 1) ⟨[], [], []⟩
  simp only [Parts.upper, List.length_append, List.length_drop, List.length_take,
    List.length_reverse, List.length_nil] at total
  simp only [divide, Parts.upper, List.length_append, List.length_drop, List.length_take,
    List.length_reverse]
  omega

end TileTracer.Sorting
