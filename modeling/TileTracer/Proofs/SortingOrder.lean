import TileTracer.Proofs.HeapOrder

namespace TileTracer.Sorting

variable {β : Type} {precedes : β → β → Bool} {kind : β → Prop}

namespace Takes

variable {xs ys taken xs' ys' : List β} {m n : Nat}

theorem mem_of_mem_taken (h : Takes precedes xs ys taken xs' ys' m n) {x : β} (hx : x ∈ taken) :
    x ∈ xs.take m ∨ x ∈ ys.take n :=
  List.mem_append.mp (h.perm.mem_iff.mp hx)

theorem ordered (horder : Orders precedes kind) (h : Takes precedes xs ys taken xs' ys' m n)
    (hxs : ∀ x ∈ xs, kind x) (hys : ∀ y ∈ ys, kind y) (hxsOrdered : Ordered precedes xs)
    (hysOrdered : Ordered precedes ys) :
    Ordered precedes taken ∧
      ∀ x ∈ taken, ∀ y, y ∈ xs.drop m ∨ y ∈ ys.drop n → precedes y x = false := by
  induction h with
  | stop => exact ⟨.nil, fun _ hx => (List.not_mem_nil hx).elim⟩
  | @right x y xs ys taken xs' ys' m n hyx htakes ih =>
      obtain ⟨hy, hysKind⟩ := List.forall_mem_cons.mp hys
      obtain ⟨hx, hxsKind⟩ := List.forall_mem_cons.mp hxs
      obtain ⟨hyHead, hyTail⟩ := List.pairwise_cons.mp hysOrdered
      obtain ⟨htaken, hleft⟩ := ih hxs hysKind hxsOrdered hyTail
      -- `y` precedes the front of the first list, so nothing in that list precedes `y`.
      have hyxs : ∀ z ∈ x :: xs, precedes z y = false := by
        refine List.forall_mem_cons.mpr ⟨horder.asymm hy hx hyx, fun z hz => ?_⟩
        exact horder.trans hy hx (hxsKind z hz) (horder.asymm hy hx hyx)
          ((List.pairwise_cons.mp hxsOrdered).1 z hz)
      refine ⟨List.pairwise_cons.mpr ⟨fun z hz => ?_, htaken⟩,
        List.forall_mem_cons.mpr ⟨fun z hz => ?_, hleft⟩⟩
      · rcases htakes.mem_of_mem_taken hz with hz | hz
        · exact hyxs z (List.mem_of_mem_take hz)
        · exact hyHead z (List.mem_of_mem_take hz)
      · rcases hz with hz | hz
        · exact hyxs z (List.mem_of_mem_drop hz)
        · exact hyHead z (List.mem_of_mem_drop hz)
  | @left x y xs ys taken xs' ys' m n hyx htakes ih =>
      obtain ⟨hy, hysKind⟩ := List.forall_mem_cons.mp hys
      obtain ⟨hx, hxsKind⟩ := List.forall_mem_cons.mp hxs
      obtain ⟨hxHead, hxTail⟩ := List.pairwise_cons.mp hxsOrdered
      obtain ⟨htaken, hleft⟩ := ih hxsKind hys hxTail hysOrdered
      -- `x` may stay in front of `y`, and so in front of all that stands behind `y`.
      have hxys : ∀ z ∈ y :: ys, precedes z x = false := by
        refine List.forall_mem_cons.mpr ⟨hyx, fun z hz => ?_⟩
        exact horder.trans hx hy (hysKind z hz) hyx ((List.pairwise_cons.mp hysOrdered).1 z hz)
      refine ⟨List.pairwise_cons.mpr ⟨fun z hz => ?_, htaken⟩,
        List.forall_mem_cons.mpr ⟨fun z hz => ?_, hleft⟩⟩
      · rcases htakes.mem_of_mem_taken hz with hz | hz
        · exact hxHead z (List.mem_of_mem_take hz)
        · exact hxys z (List.mem_of_mem_take hz)
      · rcases hz with hz | hz
        · exact hxHead z (List.mem_of_mem_drop hz)
        · exact hxys z (List.mem_of_mem_drop hz)

end Takes

theorem mem_drop_of_mem_reverse_take {l : List β} {m n : Nat} (h : m + n ≤ l.length) {x : β}
    (hx : x ∈ l.reverse.take n) : x ∈ l.drop m := by
  rw [List.take_reverse, List.mem_reverse] at hx
  exact (List.drop_subset_drop_left l (by omega)) hx

theorem mem_reverse_drop_of_mem_middle {l : List β} {m n : Nat} (h : m + n ≤ l.length) {x : β}
    (hx : x ∈ (l.drop m).take (l.length - m - n)) : x ∈ l.reverse.drop n := by
  rw [List.drop_reverse, List.mem_reverse]
  rw [List.take_drop] at hx
  exact List.take_subset_take_left l (by omega) (List.mem_of_mem_drop hx)

theorem mergeInward?_ordered (horder : Orders precedes kind) {left right merged : List β}
    (hleft : ∀ x ∈ left, kind x) (hright : ∀ x ∈ right, kind x)
    (hleftOrdered : Ordered precedes left) (hrightOrdered : Ordered precedes right)
    (h : mergeInward? precedes left right = some merged) : Ordered precedes merged := by
  obtain ⟨front, back, m, n, k, l, hfront, hback, -, hall, heq⟩ :=
    mergeInward?_eq precedes left right
  rw [heq] at h
  obtain ⟨⟨hleftEnds, hrightEnds⟩, hmerged⟩ := Option.ite_none_right_eq_some.mp h
  obtain ⟨hfrontOrdered, hfrontRest⟩ :=
    hfront.ordered horder hleft hright hleftOrdered hrightOrdered
  obtain ⟨hbackOrdered, hbackRest⟩ := hback.ordered horder.flip
    (fun x hx => hright x (List.mem_reverse.mp hx)) (fun x hx => hleft x (List.mem_reverse.mp hx))
    hrightOrdered.reverse hleftOrdered.reverse
  have hinfix {half : List β} (i j : Nat) (hhalf : Ordered precedes half) :
      Ordered precedes ((half.drop i).take j) :=
    List.Pairwise.sublist ((List.take_sublist _ _).trans (List.drop_sublist _ _)) hhalf
  -- The two ends have used up one of the halves, so the middle is a piece of the other.
  obtain ⟨middle, hmiddle⟩ : ∃ middle, middle = (left.drop m).take (left.length - m - l) ++
    (right.drop n).take (right.length - n - k) := ⟨_, rfl⟩
  have hmiddleOrdered : Ordered precedes middle := by
    rcases hall with hleftAll | hrightAll
    · have hnone : left.length - m - l = 0 := by omega
      rw [hmiddle, hnone, List.take_zero, List.nil_append]
      exact hinfix n _ hrightOrdered
    · have hnone : right.length - n - k = 0 := by omega
      rw [hmiddle, hnone, List.take_zero, List.append_nil]
      exact hinfix m _ hleftOrdered
  have hmiddleRest (x : β) (hx : x ∈ middle) : (x ∈ left.drop m ∨ x ∈ right.drop n) ∧
      (x ∈ right.reverse.drop k ∨ x ∈ left.reverse.drop l) := by
    rw [hmiddle] at hx
    rcases List.mem_append.mp hx with hx | hx
    · exact ⟨.inl (List.mem_of_mem_take hx), .inr (mem_reverse_drop_of_mem_middle hleftEnds hx)⟩
    · exact ⟨.inr (List.mem_of_mem_take hx), .inl (mem_reverse_drop_of_mem_middle hrightEnds hx)⟩
  rw [← Option.some.inj hmerged, List.append_assoc front, ← hmiddle]
  refine List.pairwise_append.mpr ⟨List.pairwise_append.mpr ⟨hfrontOrdered, hmiddleOrdered, ?_⟩,
    hbackOrdered.reverse, ?_⟩
  · exact fun x hx y hy => hfrontRest x hx y (hmiddleRest y hy).1
  · intro x hx y hy
    rw [List.mem_reverse] at hy
    rcases List.mem_append.mp hx with hx | hx
    · refine hfrontRest x hx y ?_
      rcases hback.mem_of_mem_taken hy with hy | hy
      · exact .inr (mem_drop_of_mem_reverse_take hrightEnds hy)
      · exact .inl (mem_drop_of_mem_reverse_take hleftEnds hy)
    · exact hbackRest y hy x (hmiddleRest x hx).2

theorem sortHalf_kind (long : Bool) {half : List β} (hhalf : ∀ x ∈ half, kind x) :
    ∀ x ∈ sortHalf precedes long half, kind x :=
  fun x hx => hhalf x ((sortHalf_perm precedes long half).mem_iff.mp hx)

theorem sortByHalves?_ordered (horder : Orders precedes kind) {items sorted : List β}
    (hitems : ∀ x ∈ items, kind x) (h : sortByHalves? precedes items = some sorted) :
    Ordered precedes sorted := by
  have hfirst : ∀ x ∈ items.take (items.length / 2), kind x :=
    fun x hx => hitems x (List.mem_of_mem_take hx)
  have hsecond : ∀ x ∈ items.drop (items.length / 2), kind x :=
    fun x hx => hitems x (List.mem_of_mem_drop hx)
  exact mergeInward?_ordered horder (sortHalf_kind _ hfirst) (sortHalf_kind _ hsecond)
    (sortHalf_ordered horder _ hfirst) (sortHalf_ordered horder _ hsecond) h

/-! ## Quicksort -/

def Parts.Divided (below : β → Bool) (parts : Parts β) : Prop :=
  (∀ x ∈ parts.lower, below x = true) ∧ ∀ x ∈ parts.upper, below x = false

theorem Parts.Divided.place {below : β → Bool} {parts : Parts β} (h : parts.Divided below)
    (x : β) : (parts.place below x).Divided below := by
  have hupper : ∀ y ∈ parts.rotate.upper, below y = false :=
    fun y hy => h.2 y (parts.upper_rotate_perm.mem_iff.mp hy)
  unfold Parts.place
  dsimp only
  split
  · next hx => exact ⟨List.forall_mem_cons.mpr ⟨hx, parts.lower_rotate ▸ h.1⟩, hupper⟩
  · next hx =>
    exact ⟨parts.lower_rotate ▸ h.1,
      List.forall_mem_cons.mpr ⟨Bool.eq_false_iff.mpr hx, hupper⟩⟩

theorem divide_divided (below : β → Bool) (items : List β) :
    (∀ x ∈ (divide below items).1, below x = true) ∧
      ∀ x ∈ (divide below items).2, below x = false := by
  have hfold (l : List β) (parts : Parts β) (h : parts.Divided below) :
      (l.foldl (Parts.place below) parts).Divided below := by
    induction l generalizing parts with
    | nil => exact h
    | cons x l ih => exact ih _ (h.place x)
  have hempty : (⟨[], [], []⟩ : Parts β).Divided below :=
    ⟨fun _ hx => (List.not_mem_nil hx).elim, fun _ hx => (List.not_mem_nil hx).elim⟩
  obtain ⟨hlower, hupper⟩ := hfold (items.drop 1 ++ items.take 1) _ hempty
  refine ⟨fun x hx => hlower x ?_, hupper⟩
  rcases List.mem_append.mp hx with hx | hx
  · exact List.mem_of_mem_take hx
  · exact List.mem_of_mem_drop (List.mem_reverse.mp hx)

theorem ordered_append_pivot (horder : Orders precedes kind) {lower upper : List β} {pivot : β}
    (hpivot : kind pivot) (hlower : ∀ x ∈ lower, kind x) (hupper : ∀ x ∈ upper, kind x)
    (hlowerOrdered : Ordered precedes lower) (hupperOrdered : Ordered precedes upper)
    (hbelow : ∀ x ∈ lower, precedes pivot x = false)
    (habove : ∀ x ∈ upper, precedes x pivot = false) :
    Ordered precedes (lower ++ pivot :: upper) := by
  refine List.pairwise_append.mpr
    ⟨hlowerOrdered, List.pairwise_cons.mpr ⟨habove, hupperOrdered⟩, fun x hx => ?_⟩
  refine List.forall_mem_cons.mpr ⟨hbelow x hx, fun y hy => ?_⟩
  exact horder.trans (hlower x hx) hpivot (hupper y hy) (hbelow x hx) (habove y hy)

theorem quickSort?_ordered (horder : Orders precedes kind) {depth : Nat} {bound : Option β}
    {items sorted : List β} (hitems : ∀ x ∈ items, kind x)
    (hbound : ∀ b ∈ bound, kind b ∧ ∀ x ∈ items, precedes x b = false)
    (h : quickSort? precedes depth bound items = some sorted) : Ordered precedes sorted := by
  fun_induction quickSort? precedes depth bound items generalizing sorted with
  | case1 => exact sortByHalves?_ordered horder hitems h
  | case2 bound items _ depth pivot rest taken hpivotBound lower upper divided ih =>
      obtain ⟨sortedUpper, hrun, hresult⟩ := Option.bind_eq_some_iff.mp h
      cases hresult
      obtain ⟨hpivot, hlower, hupper⟩ := mem_of_divided taken divided
      have hpivotKind := hitems pivot hpivot
      have hlowerKind := fun x hx => hitems x (hlower x hx)
      have hupperKind := fun x hx => hitems x (hupper x hx)
      have hdivided := divide_divided (fun x => !precedes pivot x) rest
      rw [divided] at hdivided
      have hbelow : ∀ x ∈ lower, precedes pivot x = false :=
        fun x hx => Bool.not_eq_eq_eq_not.mp (hdivided.1 x hx)
      have habove : ∀ x ∈ upper, precedes x pivot = false := fun x hx =>
        horder.asymm hpivotKind (hupperKind x hx) (Bool.not_eq_eq_eq_not.mp (hdivided.2 x hx))
      -- The lower part lies between the bound and the pivot, where the bound does not come first.
      obtain ⟨b, hb, hbPivot⟩ := (Option.any_eq_true ..).mp hpivotBound
      have hbPivot : precedes b pivot = false := Bool.not_eq_eq_eq_not.mp hbPivot
      obtain ⟨hbKind, hbItems⟩ := hbound b hb
      have hlowerOrdered : Ordered precedes lower := by
        refine List.pairwise_iff_forall_sublist.mpr fun {x y} hxy => ?_
        have hx := hxy.subset List.mem_cons_self
        have hy := hxy.subset (List.mem_cons_of_mem x List.mem_cons_self)
        have hyPivot := horder.trans hpivotKind hbKind (hlowerKind y hy) hbPivot
          (hbItems y (hlower y hy))
        exact horder.trans (hlowerKind x hx) hpivotKind (hlowerKind y hy) (hbelow x hx) hyPivot
      have hsorted := perm_of_quickSort? hrun
      refine ordered_append_pivot horder hpivotKind hlowerKind
        (fun x hx => hupperKind x (hsorted.mem_iff.mp hx)) hlowerOrdered
        (ih hupperKind (fun _ hb => absurd hb (Option.not_mem_none _)) hrun) hbelow
        (fun x hx => habove x (hsorted.mem_iff.mp hx))
  | case3 bound items _ depth pivot rest taken _ lower upper divided ihLower ihUpper =>
      obtain ⟨sortedLower, hrunLower, htail⟩ := Option.bind_eq_some_iff.mp h
      obtain ⟨sortedUpper, hrunUpper, hresult⟩ := Option.bind_eq_some_iff.mp htail
      cases hresult
      obtain ⟨hpivot, hlower, hupper⟩ := mem_of_divided taken divided
      have hpivotKind := hitems pivot hpivot
      have hlowerKind := fun x hx => hitems x (hlower x hx)
      have hupperKind := fun x hx => hitems x (hupper x hx)
      obtain ⟨hbelow, habove⟩ := divided ▸ divide_divided (fun x => precedes x pivot) rest
      have hsortedLower := perm_of_quickSort? hrunLower
      have hsortedUpper := perm_of_quickSort? hrunUpper
      refine ordered_append_pivot horder hpivotKind
        (fun x hx => hlowerKind x (hsortedLower.mem_iff.mp hx))
        (fun x hx => hupperKind x (hsortedUpper.mem_iff.mp hx))
        (ihLower hlowerKind ?_ hrunLower) (ihUpper hupperKind ?_ hrunUpper) ?_ ?_
      · exact fun b hb => ⟨(hbound b hb).1, fun x hx => (hbound b hb).2 x (hlower x hx)⟩
      · intro b hb
        cases hb
        exact ⟨hpivotKind, habove⟩
      · exact fun x hx => horder.asymm (hlowerKind x (hsortedLower.mem_iff.mp hx)) hpivotKind
          (hbelow x (hsortedLower.mem_iff.mp hx))
      · exact fun x hx => habove x (hsortedUpper.mem_iff.mp hx)
  | case4 => exact Option.some.inj h ▸ heapSort_ordered horder hitems

theorem ordered_of_isChain (horder : Orders precedes kind) {next : β → β → Bool}
    (hnext : ∀ x y, kind x → kind y → next x y = true → precedes y x = false) {items : List β}
    (hitems : ∀ x ∈ items, kind x) (h : isChain next items = true) : Ordered precedes items := by
  fun_induction isChain next items with
  | case1 x y rest ih =>
      obtain ⟨hxy, hchain⟩ := Bool.and_eq_true_iff.mp h
      obtain ⟨hx, hrest⟩ := List.forall_mem_cons.mp hitems
      have hordered := ih hrest hchain
      obtain ⟨hy, hrest⟩ := List.forall_mem_cons.mp hrest
      have hyx := hnext x y hx hy hxy
      refine List.pairwise_cons.mpr ⟨List.forall_mem_cons.mpr ⟨hyx, fun z hz => ?_⟩, hordered⟩
      exact horder.trans hx hy (hrest z hz) hyx ((List.pairwise_cons.mp hordered).1 z hz)
  | case2 items hshort =>
      cases items with
      | nil => exact .nil
      | cons x rest =>
          cases rest with
          | nil => exact List.pairwise_singleton _ x
          | cons y rest => exact absurd rfl (hshort x y rest)

/-- A sorted list is in order if the test is that of an order on its elements. -/
theorem sort?_ordered (horder : Orders precedes kind) {items sorted : List β}
    (hitems : ∀ x ∈ items, kind x) (h : sort? precedes items = some sorted) :
    Ordered precedes sorted := by
  unfold sort? at h
  split at h
  · exact Option.some.inj h ▸ insertionSort_ordered horder hitems
  split at h
  · next hchain =>
    refine Option.some.inj h ▸ ordered_of_isChain horder (fun x y _ _ hxy => ?_) hitems hchain
    exact Bool.not_eq_eq_eq_not.mp hxy
  split at h
  · next hchain =>
    have hreversed := ordered_of_isChain horder.flip
      (fun x y hx hy hyx => horder.asymm hy hx hyx) hitems hchain
    exact Option.some.inj h ▸ hreversed.reverse
  · exact quickSort?_ordered horder hitems (fun _ hb => absurd hb (Option.not_mem_none _)) h

end TileTracer.Sorting
