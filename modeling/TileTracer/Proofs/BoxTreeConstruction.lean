import TileTracer.Geometry.BoxTree
import TileTracer.Proofs.ScalarOrder
import TileTracer.Proofs.SortingSuccess

namespace TileTracer.BoxTree

open Scalar OrderedScalar

variable {α : Type} [Scalar α] {items : List (Primitive α)} {tree : BoxTree α}

/-- What holds of a leaf over few items, and of a branch over sorted items if it holds of both
sides, holds of every tree that is built. -/
theorem build?_induction {motive : List (Primitive α) → BoxTree α → Prop}
    (hleaf : ∀ items, items.length ≤ leafSize → motive items (.leaf (boundsOf items) items))
    (hbranch : ∀ items sorted left right, leafSize < items.length →
      sortAlong? (splitAxis items) items = some sorted →
      build? (sorted.take (items.length / 2)) = some left →
      build? (sorted.drop (items.length / 2)) = some right →
      motive (sorted.take (items.length / 2)) left →
      motive (sorted.drop (items.length / 2)) right →
      motive items (.branch (boundsOf items) left right))
    (h : build? items = some tree) : motive items tree := by
  fun_induction build? items generalizing tree
  case case1 items bounds hsmall =>
    cases h
    exact hleaf items hsmall
  case case2 => cases h
  case case3 items bounds hlarge sorted sorting ihLeft ihRight =>
    obtain ⟨left, hleft, h⟩ := Option.bind_eq_some_iff.mp h
    obtain ⟨right, hright, h⟩ := Option.bind_eq_some_iff.mp h
    cases h
    exact hbranch items sorted left right (Nat.lt_of_not_le hlarge) sorting hleft hright
      (ihLeft hleft) (ihRight hright)

theorem perm_of_build? (h : build? items = some tree) : tree.items.Perm items := by
  refine build?_induction (motive := fun items tree => tree.items.Perm items)
    (fun items _ => .refl items) ?_ h
  intro items sorted left right _ hsorted _ _ hleft hright
  have hboth := hleft.append hright
  rw [List.take_append_drop] at hboth
  exact hboth.trans (Sorting.perm_of_sort? hsorted)

theorem perm_of_ofList? (h : ofList? items = some tree) : tree.items.Perm items := by
  unfold ofList? at h
  split at h
  · next hempty =>
    cases h
    rw [List.isEmpty_iff.mp hempty]
    exact .nil
  · exact perm_of_build? h

/-- The items can be put in order along any axis: they are few, or their centroids are numbers. -/
def Sortable (items : List (Primitive α)) : Prop :=
  items.length ≤ Sorting.insertionLimit ∨
    ∀ p ∈ items, ∀ axis, p.centroid.along axis ≤ p.centroid.along axis

theorem Sortable.of_sublist {part : List (Primitive α)} (h : Sortable items)
    (hpart : part.Sublist items) : Sortable part :=
  h.imp (fun hfew => Nat.le_trans hpart.length_le hfew)
    fun hnumbers p hp => hnumbers p (hpart.subset hp)

theorem Sortable.of_perm {sorted : List (Primitive α)} (h : Sortable items)
    (hperm : sorted.Perm items) : Sortable sorted :=
  h.imp (fun hfew => hperm.length_eq ▸ hfew)
    fun hnumbers p hp => hnumbers p (hperm.mem_iff.mp hp)

variable [OrderedScalar α]

theorem orders_centroids (axis : Axis) :
    Sorting.Orders (fun p q : Primitive α => decide (p.centroid.along axis < q.centroid.along axis))
      (fun p => ∀ axis, p.centroid.along axis ≤ p.centroid.along axis) where
  asymm _ _ h := decide_eq_false (lt_asymm (of_decide_eq_true h))
  trans _ hy _ hyx hzy := decide_eq_false fun hzx =>
    (lt_or_lt hzx (hy axis)).elim (of_decide_eq_false hzy) (of_decide_eq_false hyx)

theorem sortAlong?_isSome (h : Sortable items) (axis : Axis) : (sortAlong? axis items).isSome := by
  rcases h with hfew | hnumbers
  · unfold sortAlong? Sorting.sort?
    rw [if_pos hfew]
    rfl
  · exact Sorting.sort?_isSome (orders_centroids axis) hnumbers

theorem build?_isSome (h : Sortable items) : (build? items).isSome := by
  fun_induction build? items
  case case1 => rfl
  case case2 items hlarge sorting =>
    have hsorted := sortAlong?_isSome h (splitAxis items)
    rw [sorting] at hsorted
    cases hsorted
  case case3 items bounds hlarge sorted sorting ihLeft ihRight =>
    have hsorted : Sortable sorted := h.of_perm (Sorting.perm_of_sort? sorting)
    obtain ⟨left, hleft⟩ :=
      Option.isSome_iff_exists.mp (ihLeft (hsorted.of_sublist (List.take_sublist _ _)))
    obtain ⟨right, hright⟩ :=
      Option.isSome_iff_exists.mp (ihRight (hsorted.of_sublist (List.drop_sublist _ _)))
    rw [hleft, hright]
    rfl

theorem ofList?_isSome (h : Sortable items) : (ofList? items).isSome := by
  unfold ofList?
  split
  · rfl
  · exact build?_isSome h

end TileTracer.BoxTree
