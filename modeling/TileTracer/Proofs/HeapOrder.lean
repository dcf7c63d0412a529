import Mathlib
import TileTracer.Proofs.SortingSuccess

/-!
A heap keeps its shape while elements sink in it, and taking out the last element takes away the
last place. So there is always an element at the end of the path to the last place, and the tops
come off one after the other, none preceding the next.
-/

namespace TileTracer.Sorting

variable {β γ : Type} {precedes : β → β → Bool} {kind : β → Prop}

namespace Heap

/-! ## Shapes -/

def shape : Heap β → Heap Unit
  | leaf => leaf
  | node _ left right => node () left.shape right.shape

/-- The shape of a heap of `n` elements. -/
def fullShape (n : Nat) : Heap Unit := ofList (List.replicate n ())

theorem shape_sink (x : β) (heap : Heap β) : (sink precedes x heap).shape = heap.shape := by
  fun_induction sink precedes x heap <;> simp_all [shape]

theorem shape_settle (heap : Heap β) : (settle precedes heap).shape = heap.shape := by
  induction heap with
  | leaf => rfl
  | node x left right ihLeft ihRight => rw [settle, shape_sink, shape, shape, ihLeft, ihRight]

theorem dealRows_nil (depth : Nat) : dealRows depth ([] : List β) = ([], []) := by
  rw [dealRows]
  rfl

theorem dealRows_eq (depth : Nat) (items : List β) :
    dealRows depth items =
      (items.take (2 ^ depth) ++ (dealRows (depth + 1) (items.drop (2 * 2 ^ depth))).1,
        (items.drop (2 ^ depth)).take (2 ^ depth) ++
          (dealRows (depth + 1) (items.drop (2 * 2 ^ depth))).2) := by
  rw [dealRows]
  split
  · next hempty =>
    obtain rfl := List.isEmpty_iff.mp hempty
    rw [List.drop_nil, List.drop_nil, List.take_nil, dealRows_nil]
    rfl
  · rfl

theorem dealRows_map (f : β → γ) (depth : Nat) (items : List β) :
    dealRows depth (items.map f) =
      ((dealRows depth items).1.map f, (dealRows depth items).2.map f) := by
  fun_induction dealRows depth items with
  | case1 depth items hempty =>
      obtain rfl := List.isEmpty_iff.mp hempty
      rw [List.map_nil, dealRows_nil]
  | case2 depth items _ width left right hrest ih =>
      have hwidth : width = 2 ^ depth := rfl
      rw [hrest, hwidth] at ih
      rw [dealRows_eq, ← List.map_drop, ih, hwidth]
      simp only [List.map_append, List.map_take, List.map_drop]

theorem shape_ofList (items : List β) : (ofList items).shape = fullShape items.length := by
  induction items using ofList.induct with
  | case1 => rw [fullShape, List.length_nil, List.replicate_zero, ofList, ofList, shape]
  | case2 x rest ihLeft ihRight =>
      have hunits : List.replicate rest.length () = rest.map fun _ => () := by
        rw [List.map_const']
      rw [fullShape, List.length_cons, List.replicate_succ, ofList, ofList, shape, ihLeft, ihRight,
        hunits, dealRows_map, fullShape, fullShape, List.map_const', List.map_const']

theorem exists_takeAt?_of_shape {turns : List Bool} {heap : Heap β} {s : Heap Unit}
    (h : takeAt? turns heap.shape = some ((), s)) :
    ∃ x rest, takeAt? turns heap = some (x, rest) ∧ rest.shape = s := by
  induction turns generalizing heap s with
  | nil =>
      cases heap with
      | leaf => cases h
      | node x left right =>
          cases left with
          | node => cases h
          | leaf =>
              cases right with
              | node => cases h
              | leaf =>
                  cases h
                  exact ⟨x, leaf, rfl, rfl⟩
  | cons turn turns ih =>
      cases heap with
      | leaf => cases turn <;> cases h
      | node y left right =>
          cases turn with
          | false =>
              obtain ⟨⟨_, s'⟩, htaken, hs⟩ := Option.map_eq_some_iff.mp h
              cases hs
              obtain ⟨x, rest, hrest, rfl⟩ := ih htaken
              exact ⟨x, node y rest right, by rw [takeAt?, hrest, Option.map_some], rfl⟩
          | true =>
              obtain ⟨⟨_, s'⟩, htaken, hs⟩ := Option.map_eq_some_iff.mp h
              cases hs
              obtain ⟨x, rest, hrest, rfl⟩ := ih htaken
              exact ⟨x, node y left rest, by rw [takeAt?, hrest, Option.map_some], rfl⟩

/-! ## The last place -/

theorem path_of_pos {i : Nat} (hi : 0 < i) :
    path i = path ((i - 1) / 2) ++ [decide (i % 2 = 0)] := by
  rw [path, if_neg (Nat.ne_of_gt hi)]

/-- Below the top, the left halves of the rows are the rows on the left, and so on the right. -/
theorem path_row (k : Nat) {s : Nat} (hs : s < 2 ^ k) :
    path (2 * 2 ^ k + s - 1) = false :: path (2 ^ k + s - 1) ∧
      path (3 * 2 ^ k + s - 1) = true :: path (2 ^ k + s - 1) := by
  induction k generalizing s with
  | zero =>
      obtain rfl : s = 0 := by omega
      constructor <;> simp [path]
  | succ k ih =>
      have hpos : 0 < 2 ^ k := Nat.two_pow_pos k
      have hdouble : 2 ^ (k + 1) = 2 * 2 ^ k := Nat.pow_succ'
      obtain ⟨hleft, hright⟩ := ih (show s / 2 < 2 ^ k by omega)
      rw [hdouble, path_of_pos (show 0 < 2 * 2 ^ k + s - 1 by omega)]
      have hparent : (2 * 2 ^ k + s - 1 - 1) / 2 = 2 ^ k + s / 2 - 1 := by omega
      rw [hparent]
      constructor
      · rw [path_of_pos (by omega)]
        have hparent : (2 * (2 * 2 ^ k) + s - 1 - 1) / 2 = 2 * 2 ^ k + s / 2 - 1 := by omega
        have hturn : (2 * (2 * 2 ^ k) + s - 1) % 2 = (2 * 2 ^ k + s - 1) % 2 := by omega
        rw [hparent, hturn, hleft, List.cons_append]
      · rw [path_of_pos (by omega)]
        have hparent : (3 * (2 * 2 ^ k) + s - 1 - 1) / 2 = 3 * 2 ^ k + s / 2 - 1 := by omega
        have hturn : (3 * (2 * 2 ^ k) + s - 1) % 2 = (2 * 2 ^ k + s - 1) % 2 := by omega
        rw [hparent, hturn, hright, List.cons_append]

/-- One more element goes to the left in the first half of a row and to the right in the second. The
row that it belongs to is the `k`-th one, of twice `2 ^ (k + depth)` places, `s` of them taken. -/
theorem dealRows_concat (k depth : Nat) {items : List β} (x : β) {s : Nat}
    (hlength : items.length + 2 * 2 ^ depth = 2 * 2 ^ (k + depth) + s)
    (hs : s < 2 * 2 ^ (k + depth)) :
    (s < 2 ^ (k + depth) →
      dealRows depth (items ++ [x]) = ((dealRows depth items).1 ++ [x], (dealRows depth items).2) ∧
        (dealRows depth items).1.length + 2 ^ depth = 2 ^ (k + depth) + s) ∧
    (2 ^ (k + depth) ≤ s →
      dealRows depth (items ++ [x]) = ((dealRows depth items).1, (dealRows depth items).2 ++ [x]) ∧
        (dealRows depth items).2.length + 2 ^ depth = s) := by
  induction k generalizing depth items with
  | zero =>
      rw [Nat.zero_add] at hlength hs ⊢
      have hdrop : items.drop (2 * 2 ^ depth) = [] := List.drop_of_length_le (by omega)
      have hdrop' : (items ++ [x]).drop (2 * 2 ^ depth) = [] :=
        List.drop_of_length_le (by rw [List.length_append, List.length_singleton]; omega)
      rw [dealRows_eq, hdrop', dealRows_eq depth items, hdrop, dealRows_nil, List.append_nil,
        List.append_nil, List.append_nil, List.append_nil]
      constructor
      · intro hfirst
        have hshort : items.length < 2 ^ depth := by omega
        have hshort' : (items ++ [x]).length ≤ 2 ^ depth := by
          rw [List.length_append, List.length_singleton]
          exact hshort
        rw [List.take_of_length_le hshort', List.take_of_length_le (Nat.le_of_lt hshort),
          List.drop_of_length_le hshort', List.drop_of_length_le (Nat.le_of_lt hshort)]
        exact ⟨rfl, show items.length + 2 ^ depth = 2 ^ depth + s by omega⟩
      · intro hsecond
        have hrest : ((items ++ [x]).drop (2 ^ depth)).take (2 ^ depth) =
            items.drop (2 ^ depth) ++ [x] := by
          rw [List.drop_append_of_le_length (by omega)]
          refine List.take_of_length_le ?_
          rw [List.length_append, List.length_drop, List.length_singleton]
          omega
        have hrest' : (items.drop (2 ^ depth)).take (2 ^ depth) = items.drop (2 ^ depth) :=
          List.take_of_length_le (by rw [List.length_drop]; omega)
        rw [List.take_append_of_le_length (by omega), hrest, hrest']
        exact ⟨rfl, by rw [List.length_drop]; omega⟩
  | succ k ih =>
      -- The row dealt here is full, so the new element belongs to one that is dealt with the rest.
      have hpow : 2 ^ (k + 1 + depth) = 2 ^ (k + (depth + 1)) := by
        rw [Nat.add_right_comm, Nat.add_assoc]
      have hdouble : 2 ^ (depth + 1) = 2 * 2 ^ depth := Nat.pow_succ'
      have hgrow : 2 * 2 ^ depth ≤ 2 ^ (k + (depth + 1)) := by
        rw [← hdouble]
        exact Nat.pow_le_pow_right (by decide) (Nat.le_add_left _ _)
      rw [hpow] at hlength hs ⊢
      have hlong : 2 * 2 ^ depth ≤ items.length := by omega
      have hrows : (items.drop (2 * 2 ^ depth)).length + 2 * 2 ^ (depth + 1) =
          2 * 2 ^ (k + (depth + 1)) + s := by
        rw [List.length_drop]
        omega
      obtain ⟨hleft, hright⟩ := ih (depth + 1) hrows hs
      have htake : (items ++ [x]).take (2 ^ depth) = items.take (2 ^ depth) :=
        List.take_append_of_le_length (by omega)
      have hsecond : ((items ++ [x]).drop (2 ^ depth)).take (2 ^ depth) =
          (items.drop (2 ^ depth)).take (2 ^ depth) := by
        rw [List.drop_append_of_le_length (by omega),
          List.take_append_of_le_length (by rw [List.length_drop]; omega)]
      rw [dealRows_eq, htake, hsecond, List.drop_append_of_le_length hlong, dealRows_eq depth items]
      constructor
      · intro hfirst
        obtain ⟨hdealt, hcount⟩ := hleft hfirst
        rw [hdealt, ← List.append_assoc]
        refine ⟨rfl, ?_⟩
        rw [List.length_append, List.length_take]
        omega
      · intro hsecond
        obtain ⟨hdealt, hcount⟩ := hright hsecond
        rw [hdealt, ← List.append_assoc]
        refine ⟨rfl, ?_⟩
        rw [List.length_append, List.length_take, List.length_drop]
        omega

theorem exists_row (n : Nat) : ∃ k s, n + 2 = 2 * 2 ^ k + s ∧ s < 2 * 2 ^ k := by
  have hne : n + 2 ≠ 0 := by omega
  have hlog : 1 ≤ (n + 2).log2 := (Nat.le_log2 hne).mpr (by omega)
  obtain ⟨k, hk⟩ := Nat.exists_eq_add_of_le' hlog
  have hlow := Nat.log2_self_le hne
  have hhigh : n + 2 < 2 ^ ((n + 2).log2 + 1) := Nat.lt_log2_self
  rw [hk, Nat.pow_succ'] at hlow
  rw [hk, Nat.pow_succ', Nat.pow_succ'] at hhigh
  exact ⟨k, n + 2 - 2 * 2 ^ k, by omega, by omega⟩

theorem takeAt?_ofList_concat (items : List β) (x : β) :
    takeAt? (path items.length) (ofList (items ++ [x])) = some (x, ofList items) := by
  induction items using ofList.induct generalizing x with
  | case1 =>
      rw [List.length_nil, path, if_pos rfl, List.nil_append, ofList, ofList, dealRows_nil, ofList]
      rfl
  | case2 y rest ihLeft ihRight =>
      obtain ⟨k, s, hrow, hs⟩ := exists_row rest.length
      obtain ⟨hleft, hright⟩ := dealRows_concat k 0 x hrow hs
      rw [Nat.add_zero, Nat.pow_zero] at hleft hright
      rw [List.length_cons, List.cons_append, ofList, ofList]
      rcases Nat.lt_or_ge s (2 ^ k) with hfirst | hsecond
      · obtain ⟨hdealt, hcount⟩ := hleft hfirst
        have hpath : path (rest.length + 1) = false :: path (dealRows 0 rest).1.length := by
          have hindex : rest.length + 1 = 2 * 2 ^ k + s - 1 := by omega
          have hcount : (dealRows 0 rest).1.length = 2 ^ k + s - 1 := by omega
          rw [hindex, (path_row k hfirst).1, hcount]
        rw [hpath, hdealt, takeAt?, ihLeft]
        rfl
      · obtain ⟨hdealt, hcount⟩ := hright hsecond
        have hpath : path (rest.length + 1) = true :: path (dealRows 0 rest).2.length := by
          have hindex : rest.length + 1 = 3 * 2 ^ k + (s - 2 ^ k) - 1 := by omega
          have hcount : (dealRows 0 rest).2.length = 2 ^ k + (s - 2 ^ k) - 1 := by omega
          rw [hindex, (path_row k (by omega)).2, hcount]
        rw [hpath, hdealt, takeAt?, ihRight]
        rfl

theorem exists_takeAt?_last {heap : Heap β} {n : Nat} (hshape : heap.shape = fullShape (n + 1)) :
    ∃ last rest, takeAt? (path n) heap = some (last, rest) ∧ rest.shape = fullShape n := by
  apply exists_takeAt?_of_shape
  have htaken := takeAt?_ofList_concat (List.replicate n ()) ()
  rwa [List.length_replicate, ← List.replicate_succ', ← fullShape, ← fullShape, ← hshape] at htaken

/-! ## Heaps in order -/

/-- Nowhere in the heap is there only something on the right. -/
def LeftFirst : Heap β → Prop
  | leaf => True
  | node _ left right => (left = leaf → right = leaf) ∧ left.LeftFirst ∧ right.LeftFirst

/-- No element precedes one below it. -/
def Settled (precedes : β → β → Bool) : Heap β → Prop
  | leaf => True
  | node top left right =>
    (∀ x ∈ left.toList ++ right.toList, precedes top x = false) ∧
      left.Settled precedes ∧ right.Settled precedes

def SettledBelow (precedes : β → β → Bool) : Heap β → Prop
  | leaf => True
  | node _ left right => left.Settled precedes ∧ right.Settled precedes

theorem eq_leaf_of_top? {heap : Heap β} (h : heap.top? = none) : heap = leaf := by
  cases heap with
  | leaf => rfl
  | node => cases h

theorem shape_eq_leaf {heap : Heap β} : heap.shape = leaf ↔ heap = leaf := by
  cases heap <;> simp [shape]

theorem leftFirst_shape {heap : Heap β} : heap.shape.LeftFirst ↔ heap.LeftFirst := by
  induction heap with
  | leaf => rfl
  | node x left right ihLeft ihRight =>
      simp only [shape, LeftFirst, shape_eq_leaf, ihLeft, ihRight]

theorem leftFirst_ofList (items : List β) : (ofList items).LeftFirst := by
  induction items using ofList.induct with
  | case1 =>
      rw [ofList]
      trivial
  | case2 x rest ihLeft ihRight =>
      rw [ofList]
      refine ⟨fun hleaf => ?_, ihLeft, ihRight⟩
      have hleft : (dealRows 0 rest).1 = [] := by
        have hlength := length_ofList (dealRows 0 rest).1
        rw [hleaf] at hlength
        exact List.eq_nil_of_length_eq_zero hlength.symm
      rw [dealRows_eq] at hleft
      have hrest : rest = [] := by
        rcases List.take_eq_nil_iff.mp (List.append_eq_nil_iff.mp hleft).1 with hnone | hrest
        · cases hnone
        · exact hrest
      rw [hrest, dealRows_nil, ofList]

theorem leftFirst_of_fullShape {heap : Heap β} {n : Nat} (h : heap.shape = fullShape n) :
    heap.LeftFirst :=
  leftFirst_shape.mp (h ▸ leftFirst_ofList _)

theorem Settled.below {heap : Heap β} (h : heap.Settled precedes) :
    heap.SettledBelow precedes := by
  cases heap with
  | leaf => trivial
  | node => exact h.2

theorem mem_of_top? {heap : Heap β} {y : β} (h : heap.top? = some y) : y ∈ heap.toList := by
  cases heap with
  | leaf => cases h
  | node top left right =>
      cases h
      exact List.mem_cons_self

theorem mem_sink {x y : β} {heap : Heap β} (hy : y ∈ (sink precedes x heap).toList) :
    y = x ∨ y ∈ heap.toList := by
  cases heap with
  | leaf => exact .inr hy
  | node top left right =>
      exact List.mem_cons.mp
        ((sink_perm precedes x (node top left right) rfl).mem_iff.mp (List.mem_cons_of_mem top hy))

/-- What does not precede the top precedes nothing in the heap. -/
theorem Settled.not_precedes (horder : Orders precedes kind) {heap : Heap β} {x y : β}
    (h : heap.Settled precedes) (hkind : ∀ z ∈ heap.toList, kind z) (hx : kind x)
    (htop : heap.top? = some y) (hxy : precedes x y = false) :
    ∀ z ∈ heap.toList, precedes x z = false := by
  cases heap with
  | leaf => cases htop
  | node top left right =>
      cases htop
      obtain ⟨hy, hbelow⟩ := List.forall_mem_cons.mp hkind
      refine List.forall_mem_cons.mpr ⟨hxy, fun z hz => ?_⟩
      exact horder.trans (hbelow z hz) hy hx (h.1 z hz) hxy

theorem sink_settled (horder : Orders precedes kind) {x : β} (hx : kind x) {heap : Heap β}
    (hkind : ∀ z ∈ heap.toList, kind z) (hfirst : heap.LeftFirst)
    (hbelow : heap.SettledBelow precedes) : (sink precedes x heap).Settled precedes := by
  -- A top that comes up from below precedes nothing in the part in which `x` has sunk.
  have hsunk {heap : Heap β} {y : β} (hheap : heap.Settled precedes)
      (hkind : ∀ z ∈ heap.toList, kind z) (hy : heap.top? = some y) (hxy : precedes x y = true) :
      ∀ z ∈ (sink precedes x heap).toList, precedes y z = false := by
    have hyKind := hkind y (mem_of_top? hy)
    intro z hz
    rcases mem_sink hz with rfl | hz
    · exact horder.asymm hx hyKind hxy
    · exact hheap.not_precedes horder hkind hyKind hy (horder.irrefl hyKind) z hz
  have hempty (y : β) : ∀ z ∈ (leaf : Heap β).toList, precedes y z = false :=
    fun z hz => absurd hz List.not_mem_nil
  have hparts {top : β} {left right : Heap β} (h : ∀ z ∈ (node top left right).toList, kind z) :
      (∀ z ∈ left.toList, kind z) ∧ ∀ z ∈ right.toList, kind z :=
    List.forall_mem_append.mp (List.forall_mem_cons.mp h).2
  fun_induction sink precedes x heap
  case case1 => trivial
  case case2 left right hnone =>
    obtain rfl := eq_leaf_of_top? hnone
    obtain rfl := hfirst.1 rfl
    exact ⟨hempty x, trivial, trivial⟩
  case case3 left right y hnone hy hxy ih =>
    obtain rfl := eq_leaf_of_top? hnone
    obtain ⟨hleft, -⟩ := hparts hkind
    exact ⟨List.forall_mem_append.mpr ⟨hsunk hbelow.1 hleft hy hxy, hempty y⟩,
      ih hleft hfirst.2.1 hbelow.1.below, trivial⟩
  case case4 left right y hnone hy hxy =>
    obtain rfl := eq_leaf_of_top? hnone
    obtain ⟨hleft, -⟩ := hparts hkind
    have hxy := Bool.eq_false_iff.mpr hxy
    exact ⟨List.forall_mem_append.mpr
      ⟨hbelow.1.not_precedes horder hleft hx hy hxy, hempty x⟩, hbelow.1, trivial⟩
  case case5 left right y z hz hy hyz hxz ih =>
    obtain ⟨hleft, hright⟩ := hparts hkind
    have hzKind := hright z (mem_of_top? hz)
    have hzy := horder.asymm (hleft y (mem_of_top? hy)) hzKind hyz
    exact ⟨List.forall_mem_append.mpr
      ⟨hbelow.1.not_precedes horder hleft hzKind hy hzy, hsunk hbelow.2 hright hz hxz⟩,
      hbelow.1, ih hright hfirst.2.2 hbelow.2.below⟩
  case case6 left right y z hz hy hyz hxz =>
    obtain ⟨hleft, hright⟩ := hparts hkind
    have hyKind := hleft y (mem_of_top? hy)
    have hzKind := hright z (mem_of_top? hz)
    have hxz := Bool.eq_false_iff.mpr hxz
    have hxy := horder.trans hyKind hzKind hx (horder.asymm hyKind hzKind hyz) hxz
    exact ⟨List.forall_mem_append.mpr
      ⟨hbelow.1.not_precedes horder hleft hx hy hxy, hbelow.2.not_precedes horder hright hx hz hxz⟩,
      hbelow⟩
  case case7 left right y z hz hy hyz hxy ih =>
    obtain ⟨hleft, hright⟩ := hparts hkind
    have hyKind := hleft y (mem_of_top? hy)
    have hyz := Bool.eq_false_iff.mpr hyz
    exact ⟨List.forall_mem_append.mpr
      ⟨hsunk hbelow.1 hleft hy hxy, hbelow.2.not_precedes horder hright hyKind hz hyz⟩,
      ih hleft hfirst.2.1 hbelow.1.below, hbelow.2⟩
  case case8 left right y z hz hy hyz hxy =>
    obtain ⟨hleft, hright⟩ := hparts hkind
    have hyKind := hleft y (mem_of_top? hy)
    have hzKind := hright z (mem_of_top? hz)
    have hxy := Bool.eq_false_iff.mpr hxy
    have hxz := horder.trans hzKind hyKind hx (Bool.eq_false_iff.mpr hyz) hxy
    exact ⟨List.forall_mem_append.mpr
      ⟨hbelow.1.not_precedes horder hleft hx hy hxy, hbelow.2.not_precedes horder hright hx hz hxz⟩,
      hbelow⟩

theorem settle_settled (horder : Orders precedes kind) {heap : Heap β}
    (hkind : ∀ z ∈ heap.toList, kind z) (hfirst : heap.LeftFirst) :
    (settle precedes heap).Settled precedes := by
  induction heap with
  | leaf => trivial
  | node x left right ihLeft ihRight =>
      obtain ⟨hx, hboth⟩ := List.forall_mem_cons.mp hkind
      obtain ⟨hleft, hright⟩ := List.forall_mem_append.mp hboth
      refine sink_settled horder hx ?_ ?_ ⟨ihLeft hleft hfirst.2.1, ihRight hright hfirst.2.2⟩
      · refine List.forall_mem_cons.mpr ⟨hx, List.forall_mem_append.mpr ⟨?_, ?_⟩⟩
        · exact fun z hz => hleft z ((settle_perm precedes left).mem_iff.mp hz)
        · exact fun z hz => hright z ((settle_perm precedes right).mem_iff.mp hz)
      · rw [← leftFirst_shape, shape, shape_settle, shape_settle]
        exact leftFirst_shape.mpr hfirst

theorem Settled.of_takeAt? {turns : List Bool} {heap rest : Heap β} {x : β}
    (h : heap.Settled precedes) (htaken : takeAt? turns heap = some (x, rest)) :
    rest.Settled precedes := by
  fun_induction takeAt? turns heap generalizing x rest with
  | case1 =>
      cases htaken
      trivial
  | case2 turns y left right ih =>
      obtain ⟨⟨_, left'⟩, hleft, hresult⟩ := Option.map_eq_some_iff.mp htaken
      cases hresult
      obtain ⟨hyLeft, hyRight⟩ := List.forall_mem_append.mp h.1
      refine ⟨List.forall_mem_append.mpr ⟨fun z hz => ?_, hyRight⟩, ih h.2.1 hleft, h.2.2⟩
      exact hyLeft z ((perm_of_takeAt? hleft).mem_iff.mpr (List.mem_cons_of_mem _ hz))
  | case3 turns y left right ih =>
      obtain ⟨⟨_, right'⟩, hright, hresult⟩ := Option.map_eq_some_iff.mp htaken
      cases hresult
      obtain ⟨hyLeft, hyRight⟩ := List.forall_mem_append.mp h.1
      refine ⟨List.forall_mem_append.mpr ⟨hyLeft, fun z hz => ?_⟩, h.2.1, ih h.2.2 hright⟩
      exact hyRight z ((perm_of_takeAt? hright).mem_iff.mpr (List.mem_cons_of_mem _ hz))
  | case4 => cases htaken

theorem drain_ordered (horder : Orders precedes kind) {count : Nat} {heap : Heap β} {done : List β}
    (hshape : heap.shape = fullShape count) (hsettled : heap.Settled precedes)
    (hkind : ∀ x ∈ heap.toList, kind x) (hdone : Ordered precedes done)
    (hbefore : ∀ x ∈ heap.toList, ∀ y ∈ done, precedes y x = false) :
    Ordered precedes (drain precedes count heap done) := by
  fun_induction drain precedes count heap done with
  | case1 heap done =>
      have hleaf : heap = leaf := by
        rw [fullShape, List.replicate_zero, ofList] at hshape
        exact shape_eq_leaf.mp hshape
      rw [hleaf]
      exact hdone
  | case2 count heap done top last rest htaken htop ih =>
      obtain ⟨last', rest', htaken', hrest⟩ := exists_takeAt?_last hshape
      cases htaken.symm.trans htaken'
      -- The heap that is left has the shape of a smaller one, is settled again below its new top, and
      -- holds nothing that precedes the old top, which goes to the front of what is done.
      have hmoved : (top :: (sink precedes last rest).toList).Perm heap.toList :=
        sink_last_perm htop htaken
      have htaken := perm_of_takeAt? htaken'
      have hsunk {x : β} (hx : x ∈ (sink precedes last rest).toList) : x ∈ heap.toList :=
        hmoved.mem_iff.mp (List.mem_cons_of_mem top hx)
      have htopKind := hkind top (mem_of_top? htop)
      refine ih (by rw [shape_sink, hrest]) ?_ (fun x hx => hkind x (hsunk hx)) ?_ ?_
      · obtain ⟨hlast, hleft⟩ := List.forall_mem_cons.mp
          (fun x hx => hkind x (htaken.mem_iff.mpr hx) : ∀ x ∈ last :: rest.toList, kind x)
        exact sink_settled horder hlast hleft (leftFirst_of_fullShape hrest)
          (hsettled.of_takeAt? htaken').below
      · exact List.pairwise_cons.mpr ⟨fun y hy => hbefore top (mem_of_top? htop) y hy, hdone⟩
      · intro x hx
        refine List.forall_mem_cons.mpr ⟨?_, hbefore x (hsunk hx)⟩
        exact hsettled.not_precedes horder hkind htopKind htop (horder.irrefl htopKind) x (hsunk hx)
  | case3 count heap done hstuck =>
      obtain ⟨last, rest, htaken, -⟩ := exists_takeAt?_last hshape
      cases heap with
      | leaf => cases length_of_takeAt? htaken
      | node top left right => exact absurd htaken (hstuck top last rest rfl)

end Heap

theorem heapSort_ordered (horder : Orders precedes kind) {items : List β}
    (hitems : ∀ x ∈ items, kind x) : Ordered precedes (heapSort precedes items) := by
  have hheap : ∀ x ∈ (Heap.ofList items).toList, kind x :=
    fun x hx => hitems x ((Heap.ofList_perm items).mem_iff.mp hx)
  refine Heap.drain_ordered horder ?_ (Heap.settle_settled horder hheap (Heap.leftFirst_ofList _))
    (fun x hx => hheap x ((Heap.settle_perm precedes _).mem_iff.mp hx)) .nil
    (fun x _ y hy => absurd hy List.not_mem_nil)
  rw [Heap.shape_settle, Heap.shape_ofList]

end TileTracer.Sorting
