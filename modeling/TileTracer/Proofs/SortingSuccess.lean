import Mathlib.Tactic.ByContra
import TileTracer.Proofs.SortingPermutation

namespace TileTracer.Sorting

variable {β : Type} {precedes : β → β → Bool} {kind : β → Prop}

/-- The test is that of an order on the elements of a kind; it may leave elements unordered. -/
structure Orders (precedes : β → β → Bool) (kind : β → Prop) : Prop where
  asymm {x y : β} : kind x → kind y → precedes x y = true → precedes y x = false
  trans {x y z : β} : kind x → kind y → kind z →
    precedes y x = false → precedes z y = false → precedes z x = false

def Ordered (precedes : β → β → Bool) (l : List β) : Prop :=
  l.Pairwise fun x y => precedes y x = false

theorem Orders.irrefl (h : Orders precedes kind) {x : β} (hx : kind x) : precedes x x = false := by
  cases hxx : precedes x x with
  | false => rfl
  | true => exact hxx.symm.trans (h.asymm hx hx hxx)

theorem Orders.flip (h : Orders precedes kind) : Orders (fun x y => precedes y x) kind where
  asymm hx hy := h.asymm hy hx
  trans hx hy hz hyx hzy := h.trans hz hy hx hzy hyx

theorem Ordered.reverse {l : List β} (h : Ordered precedes l) :
    Ordered (fun x y => precedes y x) l.reverse :=
  List.pairwise_reverse.mpr h

theorem insertReversed_ordered (horder : Orders precedes kind) {x : β} {l : List β} (hx : kind x)
    (hl : ∀ y ∈ l, kind y) (h : Ordered (fun x y => precedes y x) l) :
    Ordered (fun x y => precedes y x) (insertReversed precedes x l) := by
  induction l with
  | nil => exact List.pairwise_singleton _ _
  | cons y ys ih =>
      obtain ⟨hy, hys⟩ := List.forall_mem_cons.mp hl
      obtain ⟨hhead, htail⟩ := List.pairwise_cons.mp h
      unfold insertReversed
      split
      · next hxy =>
        refine List.pairwise_cons.mpr ⟨?_, ih hys htail⟩
        intro z hz
        rcases List.mem_cons.mp ((insertReversed_perm precedes x ys).mem_iff.mp hz) with rfl | hz
        · exact horder.asymm hx hy hxy
        · exact hhead z hz
      · next hxy =>
        have hxy : precedes x y = false := Bool.eq_false_iff.mpr hxy
        refine List.pairwise_cons.mpr ⟨?_, h⟩
        exact List.forall_mem_cons.mpr
          ⟨hxy, fun z hz => horder.trans (hys z hz) hy hx (hhead z hz) hxy⟩

theorem insertAll_ordered (horder : Orders precedes kind) {ordered items : List β}
    (hordered : ∀ x ∈ ordered, kind x) (hitems : ∀ x ∈ items, kind x)
    (h : Ordered precedes ordered) : Ordered precedes (insertAll precedes ordered items) := by
  have hfold (l done : List β) (hl : ∀ x ∈ l, kind x) (hdone : ∀ x ∈ done, kind x)
      (h : Ordered (fun x y => precedes y x) done) :
      Ordered (fun x y => precedes y x)
        (l.foldl (fun done x => insertReversed precedes x done) done) := by
    induction l generalizing done with
    | nil => exact h
    | cons x l ih =>
        obtain ⟨hx, hl⟩ := List.forall_mem_cons.mp hl
        refine ih _ hl ?_ (insertReversed_ordered horder hx hdone h)
        intro y hy
        rcases List.mem_cons.mp ((insertReversed_perm precedes x done).mem_iff.mp hy) with rfl | hy
        · exact hx
        · exact hdone y hy
  exact (hfold items ordered.reverse hitems (fun x hx => hordered x (List.mem_reverse.mp hx))
    h.reverse).reverse

theorem insertionSort_ordered (horder : Orders precedes kind) {items : List β}
    (hitems : ∀ x ∈ items, kind x) : Ordered precedes (insertionSort precedes items) :=
  insertAll_ordered horder (fun _ hx => (List.not_mem_nil hx).elim) hitems .nil

theorem between_ordered (horder : Orders precedes kind) {a b c d : β} (hb : kind b) (hc : kind c)
    (hab : precedes b a = false) (hac : precedes c a = false) (had : precedes d a = false)
    (hbd : precedes d b = false) (hcd : precedes d c = false) :
    Ordered precedes (a :: inOrder precedes b c ++ [d]) := by
  unfold inOrder
  split
  · next hcb =>
    have hbc := horder.asymm hc hb hcb
    simp [Ordered, hab, hac, had, hbd, hcd, hbc]
  · next hcb =>
    have hcb : precedes c b = false := Bool.eq_false_iff.mpr hcb
    simp [Ordered, hab, hac, had, hbd, hcd, hcb]

theorem sortFour_ordered (horder : Orders precedes kind) {w x y z : β} (hw : kind w) (hx : kind x)
    (hy : kind y) (hz : kind z) : Ordered precedes (sortFour precedes w x y z) := by
  have hpair {p q : β} (hp : kind p) (hq : kind q) :
      ∃ a b, kind a ∧ kind b ∧ precedes b a = false ∧
        (if precedes q p then (q, p) else (p, q)) = (a, b) := by
    split
    · next hqp => exact ⟨q, p, hq, hp, horder.asymm hq hp hqp, rfl⟩
    · next hqp => exact ⟨p, q, hp, hq, Bool.eq_false_iff.mpr hqp, rfl⟩
  obtain ⟨a, b, ha, hb, hab, habPair⟩ := hpair hw hx
  obtain ⟨c, d, hc, hd, hcd, hcdPair⟩ := hpair hy hz
  unfold sortFour
  rw [habPair, hcdPair]
  dsimp only
  split
  · next hca hdb =>
    exact between_ordered horder hb hc hab hca (horder.trans ha hb hd hab hdb) hdb hcd
  · next hca hdb =>
    have hbd := horder.asymm hd hb hdb
    exact between_ordered horder hc hd hca (horder.trans ha hc hd hca hcd) hab
      (horder.trans hc hd hb hcd hbd) hbd
  · next hca hdb =>
    have hac := horder.asymm hc ha hca
    exact between_ordered horder ha hb hac (horder.trans hc ha hb hac hab) hcd
      (horder.trans ha hb hd hab hdb) hdb
  · next hca hdb =>
    have hac := horder.asymm hc ha hca
    have hbd := horder.asymm hd hb hdb
    exact between_ordered horder ha hd hac hcd (horder.trans hc hd hb hcd hbd) hab hbd

theorem sortHalf_ordered (horder : Orders precedes kind) (long : Bool) {items : List β}
    (hitems : ∀ x ∈ items, kind x) : Ordered precedes (sortHalf precedes long items) := by
  unfold sortHalf
  split
  · next w x y z rest =>
    split
    · simp only [List.forall_mem_cons] at hitems
      obtain ⟨hw, hx, hy, hz, hrest⟩ := hitems
      refine insertAll_ordered horder ?_ hrest (sortFour_ordered horder hw hx hy hz)
      intro v hv
      have hv := (sortFour_perm precedes w x y z).mem_iff.mp hv
      simp only [List.mem_cons, List.not_mem_nil, or_false] at hv
      rcases hv with rfl | rfl | rfl | rfl <;> assumption
    · exact insertionSort_ordered horder hitems
  · exact insertionSort_ordered horder hitems

theorem Orders.precedes_of_le (horder : Orders precedes kind) {x y z : β} (hx : kind x)
    (hy : kind y) (hz : kind z) (hxy : precedes x y = true) (hyz : precedes z y = false) :
    precedes x z = true := by
  cases hxz : precedes x z with
  | true => rfl
  | false =>
      rw [horder.trans hy hz hx hyz hxz] at hxy
      cases hxy

namespace Takes

variable {xs ys taken xs' ys' : List β} {m n : Nat}

theorem crossing (horder : Orders precedes kind) (h : Takes precedes xs ys taken xs' ys' m n)
    (hxs : ∀ x ∈ xs, kind x) (hys : ∀ y ∈ ys, kind y) (hxsOrdered : Ordered precedes xs)
    (hysOrdered : Ordered precedes ys) :
    (∀ x ∈ xs.take m, ∀ y ∈ ys.drop n, precedes y x = false) ∧
      ∀ y ∈ ys.take n, ∀ x ∈ xs.drop m, precedes y x = true := by
  induction h with
  | stop =>
      exact ⟨fun _ hx => (List.not_mem_nil hx).elim, fun _ hy => (List.not_mem_nil hy).elim⟩
  | @right x y xs ys taken xs' ys' m n hyx _ ih =>
      obtain ⟨hy, hys⟩ := List.forall_mem_cons.mp hys
      obtain ⟨hleft, hright⟩ := ih hxs hys hxsOrdered (List.pairwise_cons.mp hysOrdered).2
      refine ⟨hleft, List.forall_mem_cons.mpr ⟨?_, hright⟩⟩
      intro x' hx'
      obtain ⟨hx, hxs⟩ := List.forall_mem_cons.mp hxs
      rcases List.mem_cons.mp (List.mem_of_mem_drop hx') with rfl | hx'
      · exact hyx
      · exact horder.precedes_of_le hy hx (hxs x' hx') hyx
          ((List.pairwise_cons.mp hxsOrdered).1 x' hx')
  | @left x y xs ys taken xs' ys' m n hyx _ ih =>
      obtain ⟨hx, hxs⟩ := List.forall_mem_cons.mp hxs
      obtain ⟨hleft, hright⟩ := ih hxs hys (List.pairwise_cons.mp hxsOrdered).2 hysOrdered
      refine ⟨List.forall_mem_cons.mpr ⟨?_, hleft⟩, hright⟩
      intro y' hy'
      obtain ⟨hy, hys⟩ := List.forall_mem_cons.mp hys
      rcases List.mem_cons.mp (List.mem_of_mem_drop hy') with rfl | hy'
      · exact hyx
      · exact horder.trans hx hy (hys y' hy') hyx ((List.pairwise_cons.mp hysOrdered).1 y' hy')

end Takes

theorem exists_mem_both_ends {l : List β} {m n : Nat} (hm : m ≤ l.length) (hn : n ≤ l.length)
    (h : l.length < m + n) : ∃ x ∈ l, x ∈ l.take m ∧ x ∈ l.reverse.take n := by
  have hi : l.length - n < l.length := by omega
  refine ⟨l[l.length - n], List.getElem_mem hi, ?_, ?_⟩
  · exact List.mem_take_iff_getElem.mpr ⟨l.length - n, by omega, rfl⟩
  · rw [List.take_reverse, List.mem_reverse, List.mem_drop_iff_getElem]
    exact ⟨0, by omega, rfl⟩

theorem exists_mem_neither_end {l : List β} {m n : Nat} (h : m + n < l.length) :
    ∃ x ∈ l, x ∈ l.drop m ∧ x ∈ l.reverse.drop n := by
  have hi : m < l.length := by omega
  refine ⟨l[m], List.getElem_mem hi, ?_, ?_⟩
  · exact List.mem_drop_iff_getElem.mpr ⟨0, by omega, rfl⟩
  · rw [List.drop_reverse, List.mem_reverse, List.mem_take_iff_getElem]
    exact ⟨m, by omega, rfl⟩

theorem ends_le_length {l l' : List β} {r : β → β → Bool} {c : Bool} {m n j k : Nat}
    (hm : m ≤ l.length) (hj : j ≤ l.length) (hsum : m + j + (n + k) ≤ l.length + l'.length)
    (hfront : ∀ x ∈ l.take m, ∀ y ∈ l'.drop n, r y x = c)
    (hback : ∀ x ∈ l.reverse.take j, ∀ y ∈ l'.reverse.drop k, r y x = !c) :
    m + j ≤ l.length := by
  by_contra hover
  -- An overlap here leaves a gap in the other list, and the tests across the two disagree.
  obtain ⟨x, _, hxFront, hxBack⟩ := exists_mem_both_ends hm hj (by omega)
  obtain ⟨y, _, hyFront, hyBack⟩ := exists_mem_neither_end (show n + k < l'.length by omega)
  have hboth := hfront x hxFront y hyFront
  rw [hback x hxBack y hyBack] at hboth
  cases c <;> cases hboth

theorem mergeInward?_isSome (horder : Orders precedes kind) {left right : List β}
    (hleft : ∀ x ∈ left, kind x) (hright : ∀ x ∈ right, kind x)
    (hleftOrdered : Ordered precedes left) (hrightOrdered : Ordered precedes right) :
    (mergeInward? precedes left right).isSome := by
  obtain ⟨front, back, m, n, k, l, hfront, hback, hsum, _, heq⟩ := mergeInward?_eq precedes left right
  obtain ⟨hfrontLeft, hfrontRight⟩ :=
    hfront.crossing horder hleft hright hleftOrdered hrightOrdered
  obtain ⟨hbackRight, hbackLeft⟩ := hback.crossing horder.flip
    (fun x hx => hright x (List.mem_reverse.mp hx)) (fun x hx => hleft x (List.mem_reverse.mp hx))
    hrightOrdered.reverse hleftOrdered.reverse
  obtain ⟨hm, hn⟩ := hfront.le_length
  obtain ⟨hk, hl⟩ := hback.le_length
  rw [List.length_reverse] at hk hl
  have hleftEnds : m + l ≤ left.length :=
    ends_le_length hm hl (by omega) hfrontLeft hbackLeft
  have hrightEnds : n + k ≤ right.length :=
    ends_le_length hn hk (by omega) hfrontRight hbackRight
  rw [heq, if_pos ⟨hleftEnds, hrightEnds⟩]
  rfl

theorem sortByHalves?_isSome (horder : Orders precedes kind) {items : List β}
    (hitems : ∀ x ∈ items, kind x) : (sortByHalves? precedes items).isSome := by
  have hhalf (long : Bool) {half : List β} (hhalf : ∀ x ∈ half, kind x) :
      ∀ x ∈ sortHalf precedes long half, kind x :=
    fun x hx => hhalf x ((sortHalf_perm precedes long half).mem_iff.mp hx)
  have hfirst : ∀ x ∈ items.take (items.length / 2), kind x :=
    fun x hx => hitems x (List.mem_of_mem_take hx)
  have hsecond : ∀ x ∈ items.drop (items.length / 2), kind x :=
    fun x hx => hitems x (List.mem_of_mem_drop hx)
  exact mergeInward?_isSome horder (hhalf _ hfirst) (hhalf _ hsecond)
    (sortHalf_ordered horder _ hfirst) (sortHalf_ordered horder _ hsecond)

theorem quickSort?_isSome (horder : Orders precedes kind) {depth : Nat} {bound : Option β}
    {items : List β} (hitems : ∀ x ∈ items, kind x) :
    (quickSort? precedes depth bound items).isSome := by
  fun_induction quickSort? precedes depth bound items with
  | case1 => exact sortByHalves?_isSome horder hitems
  | case2 bound items _ depth pivot rest taken _ lower upper divided ih =>
      obtain ⟨-, -, hupper⟩ := mem_of_divided taken divided
      obtain ⟨sorted, hsorted⟩ :=
        Option.isSome_iff_exists.mp (ih fun x hx => hitems x (hupper x hx))
      rw [hsorted]
      rfl
  | case3 bound items _ depth pivot rest taken _ lower upper divided ihLower ihUpper =>
      obtain ⟨-, hlower, hupper⟩ := mem_of_divided taken divided
      obtain ⟨sortedLower, hsortedLower⟩ :=
        Option.isSome_iff_exists.mp (ihLower fun x hx => hitems x (hlower x hx))
      obtain ⟨sortedUpper, hsortedUpper⟩ :=
        Option.isSome_iff_exists.mp (ihUpper fun x hx => hitems x (hupper x hx))
      rw [hsortedLower, hsortedUpper]
      rfl
  | case4 => rfl

/-- A list is sorted if the test is that of an order on its elements. -/
theorem sort?_isSome (horder : Orders precedes kind) {items : List β}
    (hitems : ∀ x ∈ items, kind x) : (sort? precedes items).isSome := by
  unfold sort?
  split
  · rfl
  · split
    · rfl
    · split
      · rfl
      · exact quickSort?_isSome horder hitems

end TileTracer.Sorting
