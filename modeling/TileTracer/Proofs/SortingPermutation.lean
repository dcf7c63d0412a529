import TileTracer.Sorting.Quick

namespace TileTracer.Sorting

variable {β : Type} {precedes : β → β → Bool}

theorem insertReversed_perm (precedes : β → β → Bool) (x : β) (l : List β) :
    (insertReversed precedes x l).Perm (x :: l) := by
  induction l with
  | nil => exact .refl [x]
  | cons y ys ih =>
      unfold insertReversed
      split
      · exact (ih.cons y).trans (.swap x y ys)
      · exact .refl _

theorem insertAll_perm (precedes : β → β → Bool) (ordered items : List β) :
    (insertAll precedes ordered items).Perm (ordered ++ items) := by
  have hfold (l done : List β) :
      (l.foldl (fun done x => insertReversed precedes x done) done).Perm (l ++ done) := by
    induction l generalizing done with
    | nil => exact .refl done
    | cons x l ih =>
        exact (ih _).trans (((insertReversed_perm precedes x done).append_left l).trans
          List.perm_middle)
  exact (List.reverse_perm _).trans ((hfold items ordered.reverse).trans
    (List.perm_append_comm.trans ((List.reverse_perm ordered).append_right items)))

theorem insertionSort_perm (precedes : β → β → Bool) (items : List β) :
    (insertionSort precedes items).Perm items :=
  insertAll_perm precedes [] items

theorem inOrder_perm (precedes : β → β → Bool) (x y : β) :
    (inOrder precedes x y).Perm [x, y] := by
  unfold inOrder
  split
  · exact .swap x y []
  · exact .refl _

theorem sortFour_perm (precedes : β → β → Bool) (w x y z : β) :
    (sortFour precedes w x y z).Perm [w, x, y, z] := by
  obtain ⟨a, b, hab, habPair⟩ : ∃ a b, [a, b].Perm [w, x] ∧
      (if precedes x w then (x, w) else (w, x)) = (a, b) := by
    split
    · exact ⟨x, w, .swap w x [], rfl⟩
    · exact ⟨w, x, .refl _, rfl⟩
  obtain ⟨c, d, hcd, hcdPair⟩ : ∃ c d, [c, d].Perm [y, z] ∧
      (if precedes z y then (z, y) else (y, z)) = (c, d) := by
    split
    · exact ⟨z, y, .swap y z [], rfl⟩
    · exact ⟨y, z, .refl _, rfl⟩
  have hsorted : (sortFour precedes w x y z).Perm [a, b, c, d] := by
    unfold sortFour
    rw [habPair, hcdPair]
    dsimp only
    split
    · exact ((inOrder_perm precedes b c).append_right [d]).cons a
    · exact (((inOrder_perm precedes c d).append_right [b]).trans
        (@List.perm_append_comm β [c, d] [b])).cons a
    · exact (((inOrder_perm precedes a b).append_right [d]).cons c).trans
        (@List.perm_middle β c [a, b] [d]).symm
    · exact (((inOrder_perm precedes a d).append_right [b]).cons c).trans
        ((((List.Perm.swap b d []).cons a).cons c).trans (@List.perm_middle β c [a, b] [d]).symm)
  exact hsorted.trans (hab.append hcd)

theorem sortHalf_perm (precedes : β → β → Bool) (long : Bool) (items : List β) :
    (sortHalf precedes long items).Perm items := by
  unfold sortHalf
  split
  · next w x y z rest =>
    split
    · exact (insertAll_perm precedes _ rest).trans
        ((sortFour_perm precedes w x y z).append_right rest)
    · exact insertionSort_perm precedes _
  · exact insertionSort_perm precedes _

/-- How `m` elements of one list and `n` of another are taken off their fronts. -/
inductive Takes (precedes : β → β → Bool) :
    List β → List β → List β → List β → List β → Nat → Nat → Prop
  | stop (xs ys : List β) : Takes precedes xs ys [] xs ys 0 0
  | right {x y : β} {xs ys taken xs' ys' : List β} {m n : Nat} : precedes y x = true →
      Takes precedes (x :: xs) ys taken xs' ys' m n →
      Takes precedes (x :: xs) (y :: ys) (y :: taken) xs' ys' m (n + 1)
  | left {x y : β} {xs ys taken xs' ys' : List β} {m n : Nat} : precedes y x = false →
      Takes precedes xs (y :: ys) taken xs' ys' m n →
      Takes precedes (x :: xs) (y :: ys) (x :: taken) xs' ys' (m + 1) n

theorem takeFronts_takes (precedes : β → β → Bool) (count : Nat) (xs ys : List β) :
    ∃ m n, m + n ≤ count ∧ (m + n = count ∨ xs.length ≤ m ∨ ys.length ≤ n) ∧
      Takes precedes xs ys (takeFronts precedes count xs ys).1
        (takeFronts precedes count xs ys).2.1 (takeFronts precedes count xs ys).2.2 m n := by
  fun_induction takeFronts precedes count xs ys with
  | case1 count x xs y ys h taken rests htake ih =>
      obtain ⟨m, n, hle, hstop, htakes⟩ := ih
      rw [htake] at htakes
      rw [List.length_cons] at hstop ⊢
      exact ⟨m, n + 1, by omega, by rw [List.length_cons]; omega, .right h htakes⟩
  | case2 count x xs y ys h taken rests htake ih =>
      obtain ⟨m, n, hle, hstop, htakes⟩ := ih
      rw [htake] at htakes
      rw [List.length_cons] at hstop ⊢
      exact ⟨m + 1, n, by omega, by rw [List.length_cons]; omega,
        .left (Bool.not_eq_true _ ▸ h) htakes⟩
  | case3 count xs ys hstop =>
      refine ⟨0, 0, Nat.zero_le _, ?_, .stop _ _⟩
      cases count with
      | zero => exact .inl rfl
      | succ count =>
          cases xs with
          | nil => exact .inr (.inl (Nat.le_refl 0))
          | cons x xs =>
              cases ys with
              | nil => exact .inr (.inr (Nat.le_refl 0))
              | cons y ys => exact absurd rfl (hstop count x xs y ys rfl rfl)

namespace Takes

variable {xs ys taken xs' ys' : List β} {m n : Nat}

theorem le_length (h : Takes precedes xs ys taken xs' ys' m n) :
    m ≤ xs.length ∧ n ≤ ys.length := by
  induction h with
  | stop => exact ⟨Nat.zero_le _, Nat.zero_le _⟩
  | right _ _ ih => exact ⟨ih.1, Nat.succ_le_succ ih.2⟩
  | left _ _ ih => exact ⟨Nat.succ_le_succ ih.1, ih.2⟩

theorem rest_eq (h : Takes precedes xs ys taken xs' ys' m n) :
    xs' = xs.drop m ∧ ys' = ys.drop n := by
  induction h with
  | stop => exact ⟨rfl, rfl⟩
  | right _ _ ih => exact ih
  | left _ _ ih => exact ih

theorem perm (h : Takes precedes xs ys taken xs' ys' m n) :
    taken.Perm (xs.take m ++ ys.take n) := by
  induction h with
  | stop => exact .refl []
  | @right x y xs ys taken xs' ys' m n _ _ ih => exact (ih.cons y).trans List.perm_middle.symm
  | @left x y xs ys taken xs' ys' m n _ _ ih => exact ih.cons x

end Takes

theorem ends_perm {l : List β} {m n : Nat} (h : m + n ≤ l.length) :
    (l.take m ++ (l.drop m).take (l.length - m - n) ++ l.reverse.take n).Perm l := by
  have hmiddle : (l.drop m).take (l.length - m - n) ++ l.drop (l.length - n) = l.drop m := by
    have hdrop : l.drop (l.length - n) = (l.drop m).drop (l.length - m - n) := by
      rw [List.drop_drop]
      congr 1
      omega
    rw [hdrop, List.take_append_drop]
  rw [List.take_reverse]
  refine ((List.reverse_perm _).append_left _).trans ?_
  rw [List.append_assoc, hmiddle, List.take_append_drop]

/-- A merge succeeds if and only if what it takes from the ends of each list does not overlap. Of
one list at least it takes all. -/
theorem mergeInward?_eq (precedes : β → β → Bool) (left right : List β) :
    ∃ front back m n k l,
      Takes precedes left right front (left.drop m) (right.drop n) m n ∧
      Takes (fun x y => precedes y x) right.reverse left.reverse back (right.reverse.drop k)
        (left.reverse.drop l) k l ∧
      m + n + (k + l) ≤ left.length + right.length ∧
      (left.length ≤ m + l ∨ right.length ≤ n + k) ∧
      mergeInward? precedes left right =
        if m + l ≤ left.length ∧ n + k ≤ right.length then
          some (front ++ (left.drop m).take (left.length - m - l) ++
            (right.drop n).take (right.length - n - k) ++ back.reverse)
        else none := by
  unfold mergeInward?
  dsimp only
  obtain ⟨m, n, hle, hstop, hfront⟩ :=
    takeFronts_takes precedes ((left.length + right.length) / 2) left right
  obtain ⟨k, l, hle', hstop', hback⟩ := takeFronts_takes (fun x y => precedes y x)
    ((left.length + right.length) / 2) right.reverse left.reverse
  generalize takeFronts precedes ((left.length + right.length) / 2) left right = front at hfront ⊢
  generalize takeFronts (fun x y => precedes y x) ((left.length + right.length) / 2) right.reverse
    left.reverse = back at hback ⊢
  obtain ⟨front, left₁, right₁⟩ := front
  obtain ⟨back, right₂, left₂⟩ := back
  obtain ⟨rfl, rfl⟩ := hfront.rest_eq
  obtain ⟨rfl, rfl⟩ := hback.rest_eq
  rw [List.length_reverse, List.length_reverse] at hstop'
  refine ⟨front, back, m, n, k, l, hfront, hback, by omega, by omega, ?_⟩
  have hmiddle {a b c : Nat} : a - b + (a - c) - a = a - b - c := by omega
  have hfrontLength := hfront.perm.length_eq
  have hbackLength := hback.perm.length_eq
  obtain ⟨hm, hn⟩ := hfront.le_length
  obtain ⟨hk, hl⟩ := hback.le_length
  simp only [List.length_append, List.length_take, List.length_drop, List.length_reverse, hmiddle]
    at hfrontLength hbackLength hm hn hk hl ⊢
  refine ite_congr (propext ?_) (fun _ => rfl) (fun _ => rfl)
  omega

theorem perm_of_mergeInward? {left right merged : List β}
    (h : mergeInward? precedes left right = some merged) : merged.Perm (left ++ right) := by
  classical
  obtain ⟨front, back, m, n, k, l, hfront, hback, _, _, heq⟩ := mergeInward?_eq precedes left right
  rw [heq] at h
  split at h
  · next hends =>
    cases h
    have hfrontPerm := hfront.perm
    have hbackPerm := hback.perm
    have hleft := ends_perm hends.1
    have hright := ends_perm hends.2
    simp only [List.perm_iff_count, List.count_append, List.count_reverse] at *
    intro x
    have := hfrontPerm x
    have := hbackPerm x
    have := hleft x
    have := hright x
    omega
  · cases h

theorem perm_of_sortByHalves? {items sorted : List β}
    (h : sortByHalves? precedes items = some sorted) : sorted.Perm items := by
  have hmerged := perm_of_mergeInward? h
  refine hmerged.trans (((sortHalf_perm precedes _ _).append (sortHalf_perm precedes _ _)).trans ?_)
  rw [List.take_append_drop]

namespace Heap

theorem dealRows_perm (depth : Nat) (items : List β) :
    ((dealRows depth items).1 ++ (dealRows depth items).2).Perm items := by
  fun_induction dealRows depth items with
  | case1 _ items h => rw [List.isEmpty_iff.mp h]; exact .refl []
  | case2 depth items _ width left right dealt ih =>
      rw [dealt] at ih
      have hrest : (items.drop width).drop width = items.drop (2 * width) := by
        rw [List.drop_drop]
        congr 1
        omega
      have hmiddle : (items.take width ++ left ++ ((items.drop width).take width ++ right)).Perm
          (items.take width ++ ((items.drop width).take width ++ (left ++ right))) := by
        rw [List.append_assoc]
        refine .append_left _ ?_
        rw [← List.append_assoc, ← List.append_assoc]
        exact List.perm_append_comm.append_right right
      rw [← hrest] at ih
      refine hmiddle.trans (((ih.append_left _).append_left _).trans ?_)
      rw [List.take_append_drop, List.take_append_drop]

theorem ofList_perm (items : List β) : (ofList items).toList.Perm items := by
  fun_induction ofList items with
  | case1 => exact .refl []
  | case2 x rest ihLeft ihRight =>
      exact ((ihLeft.append ihRight).trans (dealRows_perm 0 rest)).cons x

theorem sink_perm (precedes : β → β → Bool) (x : β) (heap : Heap β) {top : β}
    (htop : heap.top? = some top) :
    (top :: (sink precedes x heap).toList).Perm (x :: heap.toList) := by
  have hstay {top : β} (left right : Heap β) :
      (top :: (node x left right).toList).Perm (x :: (node top left right).toList) :=
    .swap x top _
  have hleft {top y : β} {left sunk right : Heap β}
      (h : (y :: sunk.toList).Perm (x :: left.toList)) :
      (top :: (node y sunk right).toList).Perm (x :: (node top left right).toList) :=
    ((h.append_right right.toList).cons top).trans (.swap x top _)
  have hright {top y : β} {left right sunk : Heap β}
      (h : (y :: sunk.toList).Perm (x :: right.toList)) :
      (top :: (node y left sunk).toList).Perm (x :: (node top left right).toList) := by
    have hbehind := (h.append_left left.toList).trans List.perm_middle
    exact ((List.perm_middle.symm.trans hbehind).cons top).trans (.swap x top _)
  fun_induction sink precedes x heap generalizing top <;> cases htop
  case case2 left right hempty => exact hstay left right
  case case3 hy _ ih => exact hleft (ih hy)
  case case4 left right _ _ _ _ => exact hstay left right
  case case5 hz _ _ _ ih => exact hright (ih hz)
  case case6 left right _ _ _ _ _ _ => exact hstay left right
  case case7 hy _ _ ih => exact hleft (ih hy)
  case case8 left right _ _ _ _ _ _ => exact hstay left right

theorem sink_node_perm (precedes : β → β → Bool) (x y : β) (left right : Heap β) :
    (sink precedes x (node y left right)).toList.Perm (x :: (left.toList ++ right.toList)) :=
  ((sink_perm precedes x (node y left right) rfl).trans (.swap y x _)).cons_inv

theorem settle_perm (precedes : β → β → Bool) (heap : Heap β) :
    (settle precedes heap).toList.Perm heap.toList := by
  induction heap with
  | leaf => exact .refl []
  | node x left right ihLeft ihRight =>
      exact (sink_node_perm precedes x x _ _).trans ((ihLeft.append ihRight).cons x)

theorem perm_of_takeAt? {turns : List Bool} {heap rest : Heap β} {x : β}
    (h : takeAt? turns heap = some (x, rest)) : heap.toList.Perm (x :: rest.toList) := by
  fun_induction takeAt? turns heap generalizing x rest with
  | case1 =>
      cases h
      exact .refl _
  | case2 _ y left right ih =>
      obtain ⟨⟨_, left'⟩, htaken, hresult⟩ := Option.map_eq_some_iff.mp h
      cases hresult
      exact (((ih htaken).append_right right.toList).cons y).trans (.swap x y _)
  | case3 _ y left right ih =>
      obtain ⟨⟨_, right'⟩, htaken, hresult⟩ := Option.map_eq_some_iff.mp h
      cases hresult
      exact ((((ih htaken).append_left left.toList).trans List.perm_middle).cons y).trans
        (.swap x y _)
  | case4 => simp at h

/-- Moving the top out of the heap and letting the last element sink moves nothing else. -/
theorem sink_last_perm {turns : List Bool} {heap rest : Heap β} {top last : β}
    (htop : heap.top? = some top) (htaken : takeAt? turns heap = some (last, rest)) :
    (top :: (sink precedes last rest).toList).Perm heap.toList := by
  have hrest : rest = leaf ∧ last = top ∨ rest.top? = some top := by
    unfold takeAt? at htaken
    split at htaken
    · cases htaken
      exact .inl ⟨rfl, Option.some.inj htop⟩
    · obtain ⟨_, _, hresult⟩ := Option.map_eq_some_iff.mp htaken
      cases hresult
      exact .inr htop
    · obtain ⟨_, _, hresult⟩ := Option.map_eq_some_iff.mp htaken
      cases hresult
      exact .inr htop
    · cases htaken
  rcases hrest with ⟨rfl, rfl⟩ | hrest
  · exact (perm_of_takeAt? htaken).symm
  · exact (sink_perm precedes last rest hrest).trans (perm_of_takeAt? htaken).symm

theorem drain_perm (precedes : β → β → Bool) (count : Nat) (heap : Heap β) (done : List β) :
    (drain precedes count heap done).Perm (heap.toList ++ done) := by
  fun_induction drain precedes count heap done with
  | case1 => exact .refl _
  | case2 count heap done top last rest htaken htop ih =>
      refine ih.trans (List.perm_middle.trans ?_)
      exact (sink_last_perm htop htaken).append_right done
  | case3 => exact .refl _

end Heap

theorem heapSort_perm (precedes : β → β → Bool) (items : List β) :
    (heapSort precedes items).Perm items := by
  have h := Heap.drain_perm precedes items.length (Heap.settle precedes (Heap.ofList items)) []
  rw [List.append_nil] at h
  exact h.trans ((Heap.settle_perm precedes _).trans (Heap.ofList_perm items))

theorem perm_of_takeOut? {items rest : List β} {index : Nat} {x : β}
    (h : takeOut? items index = some (x, rest)) : (x :: rest).Perm items := by
  unfold takeOut? at h
  split at h
  · cases h
  · cases h
    exact .refl _
  · next first rest i =>
    obtain ⟨y, hy, hresult⟩ := Option.map_eq_some_iff.mp h
    cases hresult
    obtain ⟨hi, rfl⟩ := List.getElem?_eq_some_iff.mp hy
    have hset : rest.set i first = rest.take i ++ first :: rest.drop (i + 1) := by
      rw [List.set_eq_take_append_cons_drop, if_pos hi]
    have hrest : rest = rest.take i ++ rest[i] :: rest.drop (i + 1) := by
      rw [List.getElem_cons_drop, List.take_append_drop]
    have hexchanged : (rest[i] :: rest.set i first).Perm
        (first :: (rest.take i ++ rest[i] :: rest.drop (i + 1))) := by
      rw [hset]
      exact (List.perm_middle.cons _).trans ((List.Perm.swap _ _ _).trans
        (List.perm_middle.symm.cons _))
    rwa [← hrest] at hexchanged

namespace Parts

theorem upper_rotate_perm (parts : Parts β) : parts.rotate.upper.Perm parts.upper := by
  unfold rotate
  split
  · next x front hfront =>
    simp only [upper, hfront, List.reverse_cons]
    rw [← List.append_assoc]
    exact List.perm_append_comm
  · next hfront =>
    split
    · next x front hback =>
      simp only [upper, hfront, hback]
      exact List.perm_append_comm
    · exact .refl _

theorem place_perm (below : β → Bool) (parts : Parts β) (x : β) :
    ((parts.place below x).lower ++ (parts.place below x).upper).Perm
      (x :: (parts.lower ++ parts.upper)) := by
  have hupper := parts.upper_rotate_perm
  unfold place
  dsimp only
  split
  · simp only [lower_rotate]
    exact (hupper.append_left parts.lower).cons x
  · simp only [lower_rotate]
    exact List.perm_middle.trans ((hupper.append_left parts.lower).cons x)

end Parts

theorem divide_perm (below : β → Bool) (items : List β) :
    ((divide below items).1 ++ (divide below items).2).Perm items := by
  have hfold (l : List β) (parts : Parts β) :
      ((l.foldl (Parts.place below) parts).lower ++
        (l.foldl (Parts.place below) parts).upper).Perm (l ++ (parts.lower ++ parts.upper)) := by
    induction l generalizing parts with
    | nil => exact .refl _
    | cons x l ih =>
        exact (ih _).trans (((Parts.place_perm below parts x).append_left l).trans List.perm_middle)
  have hparts := hfold (items.drop 1 ++ items.take 1) ⟨[], [], []⟩
  have hlower (l : List β) : (l.take 1 ++ (l.drop 1).reverse).Perm l := by
    have h := (List.reverse_perm (l.drop 1)).append_left (l.take 1)
    rwa [List.take_append_drop] at h
  have hitems : (items.drop 1 ++ items.take 1).Perm items := by
    have h := @List.perm_append_comm β (items.drop 1) (items.take 1)
    rwa [List.take_append_drop] at h
  unfold divide
  dsimp only
  refine ((hlower _).append_right _).trans (hparts.trans ?_)
  simpa [Parts.upper] using hitems

theorem mem_of_divided {items rest lower upper : List β} {index : Nat} {pivot : β}
    {below : β → Bool} (htaken : takeOut? items index = some (pivot, rest))
    (hdivided : divide below rest = (lower, upper)) :
    pivot ∈ items ∧ (∀ x ∈ lower, x ∈ items) ∧ ∀ x ∈ upper, x ∈ items := by
  have hperm := divide_perm below rest
  rw [hdivided] at hperm
  have hitems := ((hperm.cons pivot).trans (perm_of_takeOut? htaken)).subset
  obtain ⟨hpivot, hrest⟩ := List.cons_subset.mp hitems
  obtain ⟨hlower, hupper⟩ := List.append_subset.mp hrest
  exact ⟨hpivot, fun _ hx => hlower hx, fun _ hx => hupper hx⟩

theorem perm_of_quickSort? {depth : Nat} {bound : Option β} {items sorted : List β}
    (h : quickSort? precedes depth bound items = some sorted) : sorted.Perm items := by
  fun_induction quickSort? precedes depth bound items generalizing sorted with
  | case1 => exact perm_of_sortByHalves? h
  | case2 bound items _ depth pivot rest taken _ lower upper divided ih =>
      obtain ⟨sortedUpper, hrun, hresult⟩ := Option.bind_eq_some_iff.mp h
      cases hresult
      have hparts := divide_perm (fun x => !precedes pivot x) rest
      rw [divided] at hparts
      exact (((ih hrun).cons pivot).append_left lower).trans (List.perm_middle.trans
        ((hparts.cons pivot).trans (perm_of_takeOut? taken)))
  | case3 bound items _ depth pivot rest taken _ lower upper divided ihLower ihUpper =>
      obtain ⟨sortedLower, hrunLower, htail⟩ := Option.bind_eq_some_iff.mp h
      obtain ⟨sortedUpper, hrunUpper, hresult⟩ := Option.bind_eq_some_iff.mp htail
      cases hresult
      have hparts := divide_perm (fun x => precedes x pivot) rest
      rw [divided] at hparts
      exact ((ihLower hrunLower).append ((ihUpper hrunUpper).cons pivot)).trans
        (List.perm_middle.trans ((hparts.cons pivot).trans (perm_of_takeOut? taken)))
  | case4 => exact Option.some.inj h ▸ heapSort_perm precedes _

theorem perm_of_sort? {items sorted : List β} (h : sort? precedes items = some sorted) :
    sorted.Perm items := by
  unfold sort? at h
  split at h
  · exact Option.some.inj h ▸ insertionSort_perm precedes items
  · split at h
    · exact Option.some.inj h ▸ .refl items
    · split at h
      · exact Option.some.inj h ▸ List.reverse_perm items
      · exact perm_of_quickSort? h

end TileTracer.Sorting
