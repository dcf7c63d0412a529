import TileTracer.Geometry.BoxTree
import TileTracer.Proofs.NarrowedWindow

namespace TileTracer

open Scalar OrderedScalar

/-- The hits agree in everything but the exit. -/
def Hit.SameEntry {α : Type} (h full : Hit α) : Prop := h = { full with tExit := h.tExit }

namespace Hit.SameEntry

variable {α : Type} {f g h : Hit α}

theorem refl (h : Hit α) : h.SameEntry h := rfl

theorem trans (hg : h.SameEntry g) (hf : g.SameEntry f) : h.SameEntry f := by
  unfold SameEntry at hg hf ⊢
  rw [hg, hf]

theorem symm (hg : h.SameEntry g) : g.SameEntry h := by
  unfold SameEntry at hg ⊢
  rw [hg]

theorem t_eq (hg : h.SameEntry g) : h.t = g.t := by
  unfold SameEntry at hg
  rw [hg]

theorem cutAt [Scalar α] (h : Hit α) (limit : α) : (h.cutAt limit).SameEntry h := rfl

end Hit.SameEntry

namespace Primitive

variable {α : Type} [Scalar α] [RootedScalar α] {p : Primitive α} {ray : Ray α} {w : Window α}
  {m : α} {h : Hit α}

theorem intersect_upTo (hw : w.Bounded) (hm : m ≤ m) :
    p.intersect ray (w.upTo m) = (p.intersect ray w).bind (below m) :=
  intersect_cutsOff p ray w m hw hm

theorem intersect_upTo_of_lt (hw : w.Bounded) (hhit : p.intersect ray w = some h) (hlt : h.t < m) :
    p.intersect ray (w.upTo m) = some (h.cutAt m) := by
  rw [intersect_upTo hw (le_self_of_lt hlt).2, hhit, Option.bind_some, below, if_pos hlt]

theorem of_intersect_upTo (hw : w.Bounded) (hm : m ≤ m)
    (hhit : p.intersect ray (w.upTo m) = some h) :
    ∃ full, p.intersect ray w = some full ∧ full.t < m ∧ h = full.cutAt m := by
  rw [intersect_upTo hw hm] at hhit
  obtain ⟨full, hfull, hbelow⟩ := Option.bind_eq_some_iff.mp hhit
  unfold below at hbelow
  split at hbelow
  · next hlt => exact ⟨full, hfull, hlt, (Option.some.inj hbelow).symm⟩
  · cases hbelow

theorem t_le_self (hw : w.Bounded) (hhit : p.intersect ray w = some h) : h.t ≤ h.t := by
  rw [← Window.upTo_upper hw] at hhit
  obtain ⟨full, _, hlt, rfl⟩ := of_intersect_upTo hw hw.upper hhit
  exact (le_self_of_lt hlt).1

end Primitive

namespace BoxTree

variable {α : Type} [Scalar α] {ray : Ray α} {w : Window α} {m : α}

def nodes : BoxTree α → List (BoxTree α)
  | empty => []
  | leaf bounds items => [leaf bounds items]
  | branch bounds left right => branch bounds left right :: (left.nodes ++ right.nodes)

/-- No box of the tree hides a hit on a primitive below it, however the window is narrowed. -/
def Conservative (tree : BoxTree α) (ray : Ray α) (w : Window α) : Prop :=
  ∀ node ∈ tree.nodes, ∀ p ∈ node.items, ∀ m,
    (p.intersect ray (w.upTo m)).isSome → node.bounds.meets ray (w.upTo m)

/-- The result is the nearest of the hits on the primitives, each tried in the full window. -/
def IsNearest (ps : List (Primitive α)) (ray : Ray α) (w : Window α) : Option (Hit α) → Prop
  | none => ∀ p ∈ ps, p.intersect ray w = none
  | some h =>
      (∃ p ∈ ps, ∃ full, p.intersect ray w = some full ∧ h.SameEntry full) ∧
      ∀ p ∈ ps, ∀ full, p.intersect ray w = some full → h.t ≤ full.t

theorem IsNearest.of_perm {as bs : List (Primitive α)} {result : Option (Hit α)}
    (h : IsNearest as ray w result) (hperm : as.Perm bs) : IsNearest bs ray w result := by
  cases result with
  | none => exact fun p hp => h p (hperm.mem_iff.mpr hp)
  | some hit =>
      obtain ⟨⟨p, hp, hhit⟩, hleast⟩ := h
      exact ⟨⟨p, hperm.mem_iff.mp hp, hhit⟩, fun q hq => hleast q (hperm.mem_iff.mpr hq)⟩

theorem IsNearest.eq_none {ps : List (Primitive α)} {result : Option (Hit α)}
    (h : IsNearest ps ray w result) (hnone : ∀ p ∈ ps, p.intersect ray w = none) :
    result = none := by
  cases result with
  | none => rfl
  | some hit =>
      obtain ⟨⟨p, hp, full, hfull, -⟩, -⟩ := h
      cases (hnone p hp).symm.trans hfull

theorem Conservative.left {bounds : Box α} {left right : BoxTree α}
    (hc : (branch bounds left right).Conservative ray w) : left.Conservative ray w :=
  fun node hnode => hc node (List.mem_cons_of_mem _ (List.mem_append_left _ hnode))

theorem Conservative.right {bounds : Box α} {left right : BoxTree α}
    (hc : (branch bounds left right).Conservative ray w) : right.Conservative ray w :=
  fun node hnode => hc node (List.mem_cons_of_mem _ (List.mem_append_right _ hnode))

theorem isNearest_none_of_not_meets {items : List (Primitive α)} {bounds : Box α}
    (hbox : ∀ p ∈ items, (p.intersect ray w).isSome → bounds.meets ray w)
    (hmiss : ¬ bounds.meets ray w = true) : IsNearest items ray w none := by
  intro p hp
  exact Option.not_isSome_iff_eq_none.mp fun hsome => hmiss (hbox p hp hsome)

theorem scan_cons (p : Primitive α) (items : List (Primitive α)) (w : Window α) :
    scan (p :: items) ray w =
      items.foldl (fun closest p => (p.intersect ray (remaining w closest)).or closest)
        (p.intersect ray w) := by
  rw [scan, List.foldl_cons, Option.or_none]
  rfl

variable [RootedScalar α] {as bs : List (Primitive α)} {first second : Option (Hit α)}

theorem remaining_bounded (hw : w.Bounded) : (remaining w first).Bounded := by
  cases first with
  | none => exact hw
  | some h => exact hw.upTo

theorem remaining_upTo (w : Window α) (m : α) (first : Option (Hit α)) :
    ∃ k, remaining (w.upTo m) first = w.upTo k := by
  cases first with
  | none => exact ⟨m, rfl⟩
  | some h => exact ⟨lesser m h.t, Window.upTo_upTo w m h.t⟩

theorem IsNearest.append (hw : w.Bounded) (hfirst : IsNearest as ray w first)
    (hsecond : IsNearest bs ray (remaining w first) second) :
    IsNearest (as ++ bs) ray w (second.or first) := by
  cases first with
  | none =>
      rw [Option.or_none]
      cases second with
      | none =>
          intro p hp
          exact (List.mem_append.mp hp).elim (hfirst p) (hsecond p)
      | some h =>
          obtain ⟨⟨p, hp, hhit⟩, hleast⟩ := hsecond
          refine ⟨⟨p, List.mem_append_right as hp, hhit⟩, ?_⟩
          intro q hq full hfull
          rcases List.mem_append.mp hq with hq | hq
          · rw [hfirst q hq] at hfull
            cases hfull
          · exact hleast q hq full hfull
  | some g =>
      obtain ⟨⟨p, hp, full, hfull, hsame⟩, hleast⟩ := hfirst
      have hg : g.t ≤ g.t := self_le_of_le_left (hleast p hp full hfull)
      cases second with
      | none =>
          refine ⟨⟨p, List.mem_append_left bs hp, full, hfull, hsame⟩, ?_⟩
          intro q hq other hother
          rcases List.mem_append.mp hq with hq | hq
          · exact hleast q hq other hother
          · refine le_of_not_lt hg (Primitive.t_le_self hw hother) fun hlt => ?_
            have hnone : q.intersect ray (w.upTo g.t) = none := hsecond q hq
            rw [Primitive.intersect_upTo_of_lt hw hother hlt] at hnone
            cases hnone
      | some h =>
          -- A hit in the window that the first one has left is strictly nearer, so it may replace that.
          obtain ⟨⟨p', hp', narrow, hnarrow, hsame'⟩, hleast'⟩ := hsecond
          obtain ⟨full', hfull', hlt, rfl⟩ := Primitive.of_intersect_upTo hw hg hnarrow
          have hentry : h.SameEntry full' := hsame'.trans (.cutAt full' g.t)
          refine ⟨⟨p', List.mem_append_right as hp', full', hfull', hentry⟩, ?_⟩
          have hnearer : h.t < g.t := hentry.t_eq ▸ hlt
          intro q hq other hother
          rcases List.mem_append.mp hq with hq | hq
          · exact le_trans (le_of_lt hnearer) (hleast q hq other hother)
          · by_cases hother' : other.t < g.t
            · have hcut := Primitive.intersect_upTo_of_lt hw hother hother'
              exact hleast' q hq (other.cutAt g.t) hcut
            · have ht : g.t ≤ other.t := le_of_not_lt hg (Primitive.t_le_self hw hother) hother'
              exact le_trans (le_of_lt hnearer) ht

theorem IsNearest.single (hw : w.Bounded) (p : Primitive α) :
    IsNearest [p] ray w (p.intersect ray w) := by
  cases hhit : p.intersect ray w with
  | none => exact fun q hq => List.mem_singleton.mp hq ▸ hhit
  | some h =>
      refine ⟨⟨p, List.mem_singleton_self p, h, hhit, .refl h⟩, ?_⟩
      intro q hq full hfull
      rw [List.mem_singleton.mp hq, hhit] at hfull
      cases hfull
      exact Primitive.t_le_self hw hhit

theorem IsNearest.foldl (hw : w.Bounded) (hfirst : IsNearest as ray w first)
    (items : List (Primitive α)) :
    IsNearest (as ++ items) ray w
      (items.foldl (fun closest p => (p.intersect ray (remaining w closest)).or closest) first) := by
  induction items generalizing as first with
  | nil => rwa [List.append_nil]
  | cons p items ih =>
      rw [List.append_cons]
      exact ih (hfirst.append hw (.single (remaining_bounded hw) p))

theorem scan_isNearest (hw : w.Bounded) (items : List (Primitive α)) :
    IsNearest items ray w (scan items ray w) := by
  have hnone : IsNearest [] ray w none := fun p hp => (List.not_mem_nil hp).elim
  exact hnone.foldl hw items

/-! ## Searching as a scan -/

theorem IsNearest.t_le_self {ps : List (Primitive α)} {g : Hit α}
    (h : IsNearest ps ray w (some g)) : g.t ≤ g.t := by
  obtain ⟨⟨p, hp, full, hfull, -⟩, hleast⟩ := h
  exact self_le_of_le_left (hleast p hp full hfull)

/-- What is left by two hits, the second found in what the first had left, is left by the last. -/
theorem remaining_remaining (hw : w.Bounded) (hfirst : ∀ g, first = some g → g.t ≤ g.t)
    {p : Primitive α} :
    remaining (remaining w first) (p.intersect ray (remaining w first)) =
      remaining w ((p.intersect ray (remaining w first)).or first) := by
  cases hsecond : p.intersect ray (remaining w first) with
  | none => rfl
  | some h =>
      cases first with
      | none => rfl
      | some g =>
          obtain ⟨full, -, hlt, rfl⟩ := Primitive.of_intersect_upTo hw (hfirst g rfl) hsecond
          change (w.upTo g.t).upTo full.t = w.upTo full.t
          rw [Window.upTo_upTo, lesser_of_lt hlt]

theorem foldl_eq_scan_or (hw : w.Bounded) (items : List (Primitive α))
    (hfirst : ∀ g, first = some g → g.t ≤ g.t) :
    items.foldl (fun closest p => (p.intersect ray (remaining w closest)).or closest) first =
      (scan items ray (remaining w first)).or first := by
  induction items generalizing w first with
  | nil => rfl
  | cons p items ih =>
      have hleft : (remaining w first).Bounded := remaining_bounded hw
      have hsecond (h : Hit α) (hh : p.intersect ray (remaining w first) = some h) : h.t ≤ h.t :=
        Primitive.t_le_self hleft hh
      have hboth (h : Hit α) (hh : (p.intersect ray (remaining w first)).or first = some h) :
          h.t ≤ h.t :=
        (Option.or_eq_some_iff.mp hh).elim (hsecond h) fun hor => hfirst h hor.2
      rw [List.foldl_cons, ih hw hboth, scan_cons, ih hleft hsecond, remaining_remaining hw hfirst,
        Option.or_assoc]

theorem scan_append (hw : w.Bounded) :
    scan (as ++ bs) ray w = (scan bs ray (remaining w (scan as ray w))).or (scan as ray w) := by
  have hfirst (g : Hit α) (hg : scan as ray w = some g) : g.t ≤ g.t :=
    IsNearest.t_le_self (hg ▸ scan_isNearest hw as)
  rw [scan, List.foldl_append]
  exact foldl_eq_scan_or hw bs hfirst

theorem Conservative.scan_of_not_meets {tree node : BoxTree α} (hw : w.Bounded)
    (hc : tree.Conservative ray w) (hnode : node ∈ tree.nodes)
    (hmiss : ¬ node.bounds.meets ray (w.upTo m) = true) :
    scan node.items ray (w.upTo m) = none :=
  (scan_isNearest hw.upTo node.items).eq_none
    (isNearest_none_of_not_meets (fun p hp => hc node hnode p hp m) hmiss)

theorem intersect_upTo_eq_scan {tree : BoxTree α} (hw : w.Bounded)
    (hc : tree.Conservative ray w) (m : α) :
    tree.intersect ray (w.upTo m) = scan tree.items ray (w.upTo m) := by
  induction tree generalizing m with
  | empty => rfl
  | leaf bounds items =>
      unfold intersect
      split
      · rfl
      · next hmiss => exact (hc.scan_of_not_meets hw (List.mem_singleton_self _) hmiss).symm
  | branch bounds left right ihLeft ihRight =>
      unfold intersect
      split
      · obtain ⟨k, hk⟩ := remaining_upTo w m (scan left.items ray (w.upTo m))
        rw [items, scan_append hw.upTo, ihLeft hc.left m]
        dsimp only
        rw [hk, ihRight hc.right k]
      · next hmiss => exact (hc.scan_of_not_meets hw List.mem_cons_self hmiss).symm

/-- If its boxes hide no hit, searching a tree is trying the primitives from leaf to leaf. -/
theorem intersect_eq_scan {tree : BoxTree α} (hw : w.Bounded) (hc : tree.Conservative ray w) :
    tree.intersect ray w = scan tree.items ray w := by
  have hscan := intersect_upTo_eq_scan hw hc w.upper
  rwa [Window.upTo_upper hw] at hscan

theorem intersect_isNearest {tree : BoxTree α} (hw : w.Bounded) (hc : tree.Conservative ray w) :
    IsNearest tree.items ray w (tree.intersect ray w) :=
  intersect_eq_scan hw hc ▸ scan_isNearest hw tree.items

end BoxTree

end TileTracer
