import TileTracer.Geometry.Primitive
import TileTracer.Sorting.Quick

namespace TileTracer

inductive BoxTree (α : Type) where
  | empty
  | leaf (bounds : Box α) (items : List (Primitive α))
  | branch (bounds : Box α) (left right : BoxTree α)
  deriving Repr, Inhabited

namespace BoxTree

def leafSize : Nat := 4

variable {α : Type} [Scalar α]

@[specialize] def boundsOf (items : List (Primitive α)) : Box α :=
  items.foldl (fun acc p => acc.join p.bounds) .empty

/-- The axis along which the centroids spread furthest. -/
@[specialize] def splitAxis (items : List (Primitive α)) : Axis :=
  (items.foldl (fun (acc : Box α) p => acc.grow p.centroid) .empty).longestAxis

/-- The items in order of their centroids along an axis. There may be no such order if some of them
cannot be compared. -/
@[specialize] def sortAlong? (axis : Axis) (items : List (Primitive α)) :
    Option (List (Primitive α)) :=
  Sorting.sort? (fun p q => decide (p.centroid.along axis < q.centroid.along axis)) items

/-- Splits the sorted items in the middle until they fit into leaves. -/
@[specialize] def build? (items : List (Primitive α)) : Option (BoxTree α) :=
  let bounds := boundsOf items
  if items.length ≤ leafSize then some (.leaf bounds items)
  else match sorting : sortAlong? (splitAxis items) items with
    | none => none
    | some sorted => do
      let left ← build? (sorted.take (items.length / 2))
      let right ← build? (sorted.drop (items.length / 2))
      return .branch bounds left right
termination_by items.length
decreasing_by
  all_goals have := Sorting.length_of_sort? sorting
  all_goals simp only [List.length_take, List.length_drop]
  all_goals simp only [leafSize] at *
  all_goals omega

@[specialize] def ofList? (items : List (Primitive α)) : Option (BoxTree α) :=
  if items.isEmpty then some .empty else build? items

def bounds : BoxTree α → Box α
  | empty => .empty
  | leaf bounds _ => bounds
  | branch bounds _ _ => bounds

/-- The primitives of the leaves from left to right. -/
def items : BoxTree α → List (Primitive α)
  | empty => []
  | leaf _ items => items
  | branch _ left right => left.items ++ right.items

def size (tree : BoxTree α) : Nat := tree.items.length

/-- The window up to a hit found so far. -/
@[inline] def remaining (w : Window α) : Option (Hit α) → Window α
  | none => w
  | some hit => w.upTo hit.t

/-- The nearest hit among a list of primitives, each tried up to the hit found before it. -/
@[specialize] def scan (items : List (Primitive α)) (ray : Ray α) (w : Window α) :
    Option (Hit α) :=
  items.foldl (fun closest p => (p.intersect ray (remaining w closest)).or closest) none

/-- The nearest hit in the tree; the right half is searched up to the hit of the left half. -/
@[specialize] def intersect : BoxTree α → Ray α → Window α → Option (Hit α)
  | empty, _, _ => none
  | leaf bounds items, ray, w => if bounds.meets ray w then scan items ray w else none
  | branch bounds left right, ray, w =>
    if bounds.meets ray w then
      let first := left.intersect ray w
      (right.intersect ray (remaining w first)).or first
    else none

end BoxTree

end TileTracer
