import Mathlib.Data.Nat.Log
import TileTracer.Proofs.Binary32Monotone
import TileTracer.Proofs.BoxEnclosure
import TileTracer.Proofs.NearestPrimitive
import TileTracer.Proofs.SortingOrder

namespace TileTracer

open Scalar OrderedScalar

namespace Box

variable {α : Type} [Scalar α] {box box' : Box α}

def extent (box : Box α) (axis : Axis) : α := box.high.along axis - box.low.along axis

theorem IsHull.of_perm {as bs : List (Box α)} (h : box.IsHull as) (hperm : as.Perm bs) :
    box.IsHull bs :=
  ⟨fun b hb => h.encloses b (hperm.mem_iff.mpr hb),
    fun outer houter => h.least outer fun b hb => houter b (hperm.mem_iff.mp hb)⟩

/-- No extent exceeds that of the longest axis, if all of them are numbers. -/
theorem not_extent_longestAxis_lt [OrderedScalar α]
    (h : ∀ axis, box.extent axis ≤ box.extent axis) (axis : Axis) :
    ¬ box.extent box.longestAxis < box.extent axis := by
  have htrans {a b c : Axis} (hab : ¬ box.extent b < box.extent a)
      (hbc : ¬ box.extent c < box.extent b) : ¬ box.extent c < box.extent a :=
    not_lt_of_le (le_trans (le_of_not_lt (h a) (h b) hab) (le_of_not_lt (h b) (h c) hbc))
  unfold longestAxis
  change ¬ box.extent (if decide (box.extent .y < box.extent .x) &&
    decide (box.extent .z < box.extent .x) then _ else
      if box.extent .z < box.extent .y then _ else _) < _
  split
  · next hx =>
    obtain ⟨hyx, hzx⟩ := Bool.and_eq_true_iff.mp hx
    cases axis with
    | x => exact lt_irrefl _
    | y => exact lt_asymm (of_decide_eq_true hyx)
    | z => exact lt_asymm (of_decide_eq_true hzx)
  · next hx =>
    -- The first axis may have been refused for either of the others.
    have hx : ¬ box.extent .y < box.extent .x ∨ ¬ box.extent .z < box.extent .x := by
      by_contra hboth
      rw [not_or, not_not, not_not] at hboth
      exact hx (by rw [decide_eq_true hboth.1, decide_eq_true hboth.2]; rfl)
    split
    · next hzy =>
      cases axis with
      | x => exact hx.elim id fun hzx => htrans hzx (lt_asymm hzy)
      | y => exact lt_irrefl _
      | z => exact lt_asymm hzy
    · next hzy =>
      cases axis with
      | x => exact hx.elim (fun hyx => htrans hyx hzy) id
      | y => exact hzy
      | z => exact lt_irrefl _

theorem extent_under [MonotoneScalar α] (h : box.Encloses box') (axis : Axis) :
    Under (box'.extent axis) (box.extent axis) :=
  MonotoneScalar.sub_under (.of_le (h.high axis)) (.of_le (h.low axis))

end Box

namespace BoxTree

variable {α : Type} [Scalar α] {items : List (Primitive α)} {tree : BoxTree α}

def height : BoxTree α → Nat
  | empty => 0
  | leaf _ _ => 0
  | branch _ left right => max left.height right.height + 1

/-- The centroids spread along no axis further than along this one, if their extents are numbers. -/
def Widest (axis : Axis) (items : List (Primitive α)) : Prop :=
  ∀ box : Box α, box.IsHull (items.map fun p => .point p.centroid) →
    (∀ a, box.extent a ≤ box.extent a) → ∀ a, ¬ box.extent axis < box.extent a

/-- The two sides of a branch are the halves of what is below, in order along the widest axis. -/
structure Halves (bounds : Box α) (left right : BoxTree α) : Prop where
  many : leafSize < left.size + right.size
  left_size : left.size = (left.size + right.size) / 2
  right_size : right.size = (left.size + right.size + 1) / 2
  left_bounds : bounds.Encloses left.bounds
  right_bounds : bounds.Encloses right.bounds
  ordered : ∃ axis, Widest axis (left.items ++ right.items) ∧
    ∀ p ∈ left.items, ∀ q ∈ right.items, p.centroid.along axis ≤ q.centroid.along axis

def Divided : BoxTree α → Prop
  | empty => False
  | leaf _ items => 1 ≤ items.length ∧ items.length ≤ leafSize
  | branch bounds left right => Halves bounds left right

theorem bounds_of_build? (h : build? items = some tree) : tree.bounds = boundsOf items :=
  build?_induction (motive := fun items tree => tree.bounds = boundsOf items) (fun _ _ => rfl)
    (fun _ _ _ _ _ _ _ _ _ _ => rfl) h

theorem size_of_build? (h : build? items = some tree) : tree.size = items.length :=
  (perm_of_build? h).length_eq

theorem Widest.of_perm {axis : Axis} {as bs : List (Primitive α)} (h : Widest axis as)
    (hperm : as.Perm bs) : Widest axis bs :=
  fun box hbox => h box (hbox.of_perm (hperm.symm.map _))

theorem height_of_build? (h : build? items = some tree) :
    tree.height ≤ Nat.clog 2 items.length := by
  refine build?_induction (motive := fun items tree => tree.height ≤ Nat.clog 2 items.length)
    (fun _ _ => Nat.zero_le _) ?_ h
  intro items sorted left right hlarge hsorted _ _ hleft hright
  have hlength := Sorting.length_of_sort? hsorted
  have hmany : 2 ≤ items.length := Nat.le_trans (by decide) hlarge
  have hhalf {n : Nat} (hn : n ≤ (items.length + 1) / 2) :
      Nat.clog 2 n ≤ Nat.clog 2 ((items.length + 2 - 1) / 2) :=
    Nat.clog_mono_right 2 hn
  rw [List.length_take] at hleft
  rw [List.length_drop] at hright
  rw [Nat.clog_of_two_le Nat.one_lt_two hmany, height]
  exact Nat.succ_le_succ (Nat.max_le.mpr
    ⟨hleft.trans (hhalf (by omega)), hright.trans (hhalf (by omega))⟩)

theorem halves_of_sorted {axis : Axis} {sorted : List (Primitive α)}
    (hlarge : leafSize < items.length)
    (hsorted : sortAlong? axis items = some sorted) :
    sorted.take (items.length / 2) ≠ [] ∧ sorted.drop (items.length / 2) ≠ [] ∧
      (∀ p ∈ sorted.take (items.length / 2), p ∈ items) ∧
      ∀ p ∈ sorted.drop (items.length / 2), p ∈ items := by
  have hlength := Sorting.length_of_sort? hsorted
  have hperm := Sorting.perm_of_sort? hsorted
  rw [leafSize] at hlarge
  refine ⟨List.ne_nil_of_length_pos ?_, List.ne_nil_of_length_pos ?_,
    fun p hp => hperm.mem_iff.mp (List.mem_of_mem_take hp),
    fun p hp => hperm.mem_iff.mp (List.mem_of_mem_drop hp)⟩
  · rw [List.length_take]
    omega
  · rw [List.length_drop]
    omega

omit [Scalar α] in
theorem forall_mem_nodes_branch {bounds : Box α} {left right : BoxTree α} {P : BoxTree α → Prop}
    (hroot : P (branch bounds left right)) (hleft : ∀ node ∈ left.nodes, P node)
    (hright : ∀ node ∈ right.nodes, P node) : ∀ node ∈ (branch bounds left right).nodes, P node :=
  List.forall_mem_cons.mpr ⟨hroot, List.forall_mem_append.mpr ⟨hleft, hright⟩⟩

variable [MonotoneScalar α]

theorem boundsOf_isHull (hne : items ≠ []) (hitems : ∀ p ∈ items, p.bounds.IsNumber) :
    (boundsOf items).IsHull (items.map Primitive.bounds) := by
  have hboxes : ∀ b ∈ items.map Primitive.bounds, b.IsNumber :=
    List.forall_mem_map.mpr hitems
  have hhull := Box.foldl_join_isHull (mt List.map_eq_nil_iff.mp hne) hboxes
  rwa [List.foldl_map] at hhull

theorem widest_splitAxis (hne : items ≠ []) (hitems : ∀ p ∈ items, p.centroid.IsNumber) :
    Widest (splitAxis items) items := by
  have hpoints : ∀ b ∈ items.map fun p => Box.point p.centroid, b.IsNumber :=
    List.forall_mem_map.mpr fun p hp => ⟨hitems p hp, hitems p hp⟩
  obtain ⟨spread, hspread, hsplit⟩ : ∃ spread : Box α,
      spread.IsHull (items.map fun p => .point p.centroid) ∧
        splitAxis items = spread.longestAxis := by
    refine ⟨items.foldl (fun (acc : Box α) p => acc.grow p.centroid) .empty, ?_, rfl⟩
    have hhull := Box.foldl_join_isHull (mt List.map_eq_nil_iff.mp hne) hpoints
    rwa [List.foldl_map] at hhull
  intro box hbox hnumbers axis hlt
  have hout (a : Axis) := Box.extent_under (hspread.least box hbox.encloses) a
  have hin (a : Axis) := Box.extent_under (hbox.least spread hspread.encloses) a
  rw [hsplit] at hlt
  exact Box.not_extent_longestAxis_lt (fun a => (hin a).number_of_both (hout a) (hnumbers a)) axis
    ((hout spread.longestAxis).above ((hin axis).below hlt))

theorem isHull_of_build? (h : build? items = some tree) (hne : items ≠ [])
    (hitems : ∀ p ∈ items, p.bounds.IsNumber) :
    ∀ node ∈ tree.nodes, node.bounds.IsHull (node.items.map Primitive.bounds) := by
  refine build?_induction (motive := fun items tree => items ≠ [] →
    (∀ p ∈ items, p.bounds.IsNumber) →
      ∀ node ∈ tree.nodes, node.bounds.IsHull (node.items.map Primitive.bounds)) ?_ ?_ h hne hitems
  · exact fun items _ hne hitems => List.forall_mem_singleton.mpr (boundsOf_isHull hne hitems)
  · intro items sorted left right hlarge hsorted hleft hright ihLeft ihRight hne hitems
    obtain ⟨hneLeft, hneRight, hmemLeft, hmemRight⟩ := halves_of_sorted hlarge hsorted
    have hboth := (perm_of_build? hleft).append (perm_of_build? hright)
    rw [List.take_append_drop] at hboth
    have hperm := hboth.trans (Sorting.perm_of_sort? hsorted)
    refine forall_mem_nodes_branch ?_ (ihLeft hneLeft fun p hp => hitems p (hmemLeft p hp))
      (ihRight hneRight fun p hp => hitems p (hmemRight p hp))
    exact (boundsOf_isHull hne hitems).of_perm (hperm.symm.map _)

theorem boundsOf_encloses {part : List (Primitive α)} (hpart : ∀ p ∈ part, p ∈ items)
    (hne : part ≠ []) (hitems : ∀ p ∈ items, p.bounds.IsNumber) :
    (boundsOf items).Encloses (boundsOf part) := by
  have hneItems : items ≠ [] := by
    obtain ⟨p, hp⟩ := List.exists_mem_of_ne_nil part hne
    exact List.ne_nil_of_mem (hpart p hp)
  refine (boundsOf_isHull hne fun p hp => hitems p (hpart p hp)).least _ ?_
  exact List.forall_mem_map.mpr fun p hp =>
    (boundsOf_isHull hneItems hitems).encloses _ (List.mem_map_of_mem (hpart p hp))

theorem halves_of_build? {sorted : List (Primitive α)} {left right : BoxTree α}
    (hlarge : leafSize < items.length) (hsorted : sortAlong? (splitAxis items) items = some sorted)
    (hleft : build? (sorted.take (items.length / 2)) = some left)
    (hright : build? (sorted.drop (items.length / 2)) = some right)
    (hbounds : ∀ p ∈ items, p.bounds.IsNumber) (hcentroids : ∀ p ∈ items, p.centroid.IsNumber) :
    Halves (boundsOf items) left right := by
  obtain ⟨hneLeft, hneRight, hmemLeft, hmemRight⟩ := halves_of_sorted hlarge hsorted
  have hleftPerm := perm_of_build? hleft
  have hrightPerm := perm_of_build? hright
  have hlength := Sorting.length_of_sort? hsorted
  have hleftSize := size_of_build? hleft
  have hrightSize := size_of_build? hright
  rw [List.length_take] at hleftSize
  rw [List.length_drop] at hrightSize
  have hne : items ≠ [] := List.ne_nil_of_length_pos (Nat.zero_lt_of_lt hlarge)
  have hordered := Sorting.sort?_ordered (orders_centroids (splitAxis items)) hcentroids hsorted
  rw [← List.take_append_drop (items.length / 2) sorted] at hordered
  have hboth := hleftPerm.append hrightPerm
  rw [List.take_append_drop] at hboth
  refine ⟨by omega, by omega, by omega, ?_, ?_, splitAxis items, ?_, ?_⟩
  · rw [bounds_of_build? hleft]
    exact boundsOf_encloses hmemLeft hneLeft hbounds
  · rw [bounds_of_build? hright]
    exact boundsOf_encloses hmemRight hneRight hbounds
  · exact (widest_splitAxis hne hcentroids).of_perm
      (hboth.trans (Sorting.perm_of_sort? hsorted)).symm
  · intro p hp q hq
    have hp := hleftPerm.mem_iff.mp hp
    have hq := hrightPerm.mem_iff.mp hq
    refine le_of_not_lt (hcentroids p (hmemLeft p hp) _) (hcentroids q (hmemRight q hq) _) ?_
    exact of_decide_eq_false ((List.pairwise_append.mp hordered).2.2 p hp q hq)

theorem divided_of_build? (h : build? items = some tree) (hne : items ≠ [])
    (hbounds : ∀ p ∈ items, p.bounds.IsNumber) (hcentroids : ∀ p ∈ items, p.centroid.IsNumber) :
    ∀ node ∈ tree.nodes, node.Divided := by
  refine build?_induction (motive := fun items tree => items ≠ [] →
    (∀ p ∈ items, p.bounds.IsNumber) → (∀ p ∈ items, p.centroid.IsNumber) →
      ∀ node ∈ tree.nodes, node.Divided) ?_ ?_ h hne hbounds hcentroids
  · exact fun items hsmall hne _ _ =>
      List.forall_mem_singleton.mpr ⟨List.length_pos_iff.mpr hne, hsmall⟩
  · intro items sorted left right hlarge hsorted hleft hright ihLeft ihRight _ hbounds hcentroids
    obtain ⟨hneLeft, hneRight, hmemLeft, hmemRight⟩ := halves_of_sorted hlarge hsorted
    exact forall_mem_nodes_branch
      (halves_of_build? hlarge hsorted hleft hright hbounds hcentroids)
      (ihLeft hneLeft (fun p hp => hbounds p (hmemLeft p hp))
        fun p hp => hcentroids p (hmemLeft p hp))
      (ihRight hneRight (fun p hp => hbounds p (hmemRight p hp))
        fun p hp => hcentroids p (hmemRight p hp))

/-- A tree is built over every list of primitives whose boxes and centroids are numbers. It holds
these primitives, is balanced, and halves them along the axis on which their centroids spread
furthest; this does not count extents that are not numbers. -/
theorem ofList?_shape {ps : List (Primitive Float32)} (hne : ps ≠ [])
    (hps : ∀ p ∈ ps, p.bounds.IsNumber ∧ p.centroid.IsNumber) :
    ∃ tree, ofList? ps = some tree ∧ tree.items.Perm ps ∧ tree.size = ps.length ∧
      tree.height ≤ Nat.clog 2 ps.length ∧
      ∀ node ∈ tree.nodes,
        node.bounds.IsHull (node.items.map Primitive.bounds) ∧ node.Divided := by
  have hbuild : ofList? ps = build? ps :=
    if_neg fun hempty => hne (List.isEmpty_iff.mp hempty)
  have hbounds := fun p hp => (hps p hp).1
  have hcentroids := fun p hp => (hps p hp).2
  obtain ⟨tree, htree⟩ := Option.isSome_iff_exists.mp (build?_isSome (.inr hcentroids))
  have hhull := isHull_of_build? htree hne hbounds
  have hdivided := divided_of_build? htree hne hbounds hcentroids
  exact ⟨tree, hbuild.trans htree, perm_of_build? htree, size_of_build? htree,
    height_of_build? htree, fun node hnode => ⟨hhull node hnode, hdivided node hnode⟩⟩

theorem ofList?_shape_five_spheres :
    ∃ tree, ofList? fiveSpheres = some tree ∧ tree.size = 5 ∧ tree.height ≤ 3 ∧
      ∀ node ∈ tree.nodes,
        node.bounds.IsHull (node.items.map Primitive.bounds) ∧ node.Divided := by
  have hnumbers : ∀ p ∈ fiveSpheres, p.bounds.IsNumber ∧ p.centroid.IsNumber := by
    decide +kernel
  obtain ⟨tree, htree, -, hsize, hheight, hnodes⟩ :=
    ofList?_shape (List.cons_ne_nil _ _) hnumbers
  have hclog : Nat.clog 2 fiveSpheres.length = 3 := by decide +kernel
  exact ⟨tree, htree, hsize, hclog ▸ hheight, hnodes⟩

/-- Boxes so far out along one axis that their centroids lie at infinity there. -/
def fiveSlabs : List (Primitive Float32) :=
  [(-1, 9), (1.5, 2.5), (2, 3), (2.5, 3.5), (-9, 1)].zipIdx.map fun ((low, high), owner) =>
    ⟨.volume ⟨⟨low, 1e38, -3⟩, ⟨high, 3e38, -1⟩⟩, owner⟩

def sides? : BoxTree α → Option (List (Primitive α) × List (Primitive α))
  | branch _ left right => some (left.items, right.items)
  | _ => none

omit [Scalar α] [MonotoneScalar α] in
theorem exists_branch_of_sides? {sides : List (Primitive α) × List (Primitive α)}
    (h : tree.sides? = some sides) :
    ∃ bounds left right, tree = branch bounds left right ∧ sides = (left.items, right.items) := by
  cases tree with
  | empty => cases h
  | leaf => cases h
  | branch bounds left right => exact ⟨bounds, left, right, rfl, (Option.some.inj h).symm⟩

/-- Centroids that coincide at infinity have no extent there, which hides that they spread along
another axis: the halves are in order only where all centroids coincide. -/
theorem five_slabs_split :
    (∀ p ∈ fiveSlabs, p.bounds.IsNumber ∧ p.centroid.IsNumber) ∧
      ∃ bounds left right, ∃ box : Box Float32,
        ofList? fiveSlabs = some (.branch bounds left right) ∧
        box.IsHull (fiveSlabs.map fun p => .point p.centroid) ∧
        ∀ axis, (∀ p ∈ left.items, ∀ q ∈ right.items,
            p.centroid.along axis ≤ q.centroid.along axis) →
          ¬ box.extent axis ≤ box.extent axis ∨ ∃ a, box.extent axis < box.extent a := by
  have hnumbers : ∀ p ∈ fiveSlabs, p.bounds.IsNumber ∧ p.centroid.IsNumber := by decide +kernel
  have hpoints : ∀ b ∈ fiveSlabs.map fun p => Box.point p.centroid, b.IsNumber :=
    List.forall_mem_map.mpr fun p hp => ⟨(hnumbers p hp).2, (hnumbers p hp).2⟩
  have hrun : (ofList? fiveSlabs).bind sides? = some (fiveSlabs.take 2, fiveSlabs.drop 2) := by
    decide +kernel
  obtain ⟨tree, htree, hsides⟩ := Option.bind_eq_some_iff.mp hrun
  obtain ⟨bounds, left, right, rfl, hitems⟩ := exists_branch_of_sides? hsides
  obtain ⟨hleft, hright⟩ := Prod.mk.inj hitems
  have hne : (fiveSlabs.map fun p => Box.point p.centroid) ≠ [] := mt List.map_eq_nil_iff.mp nofun
  refine ⟨hnumbers, bounds, left, right, _, htree, Box.foldl_join_isHull hne hpoints, ?_⟩
  rw [← hleft, ← hright]
  intro axis hsorted
  cases axis with
  | x =>
      have hends : ∃ p ∈ fiveSlabs.take 2, ∃ q ∈ fiveSlabs.drop 2,
          ¬ p.centroid.along .x ≤ q.centroid.along .x := by decide +kernel
      obtain ⟨p, hp, q, hq, hnot⟩ := hends
      exact absurd (hsorted p hp q hq) hnot
  | y => exact .inl (by decide +kernel)
  | z => exact .inr ⟨.x, by decide +kernel⟩

end BoxTree

end TileTracer
