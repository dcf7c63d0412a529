import TileTracer.Proofs.NearestPrimitive

namespace TileTracer

open Scalar OrderedScalar

def Hit.cutAll {α : Type} [Scalar α] (h : Hit α) (limits : List (Hit α)) : Hit α :=
  { h with tExit := (limits.map Hit.t).foldl lesser h.tExit }

theorem Hit.cutAll_append {α : Type} [Scalar α] (h : Hit α) (as bs : List (Hit α)) :
    (h.cutAll as).cutAll bs = h.cutAll (as ++ bs) := by
  simp only [cutAll, List.map_append, List.foldl_append]

/-- A box that a ray can be inside of, rather than a surface. -/
def Primitive.IsVolume {α : Type} (p : Primitive α) : Prop := ∃ box, p.solid = .volume box

namespace BoxTree

variable {α : Type} [Scalar α] {seen items : List (Primitive α)} {ray : Ray α} {w : Window α}
  {hits : List (Hit α)} {h : Hit α}

/-- Adds the hit of a primitive, tried up to the newest hit, to the front of the hits. -/
def extend (ray : Ray α) (w : Window α) (hits : List (Hit α)) (p : Primitive α) : List (Hit α) :=
  (p.intersect ray (remaining w hits.head?)).toList ++ hits

/-- The hits found while trying a list of primitives, the newest first. -/
def trail (items : List (Primitive α)) (ray : Ray α) (w : Window α) : List (Hit α) :=
  items.foldl (extend ray w) []

/-- The hits up to which that primitive was tried whose hit the search has found. -/
def limits : BoxTree α → Ray α → Window α → List (Hit α)
  | empty, _, _ => []
  | leaf _ items, ray, w => (trail items ray w).tail.head?.toList
  | branch _ left right, ray, w =>
    let first := left.intersect ray w
    -- What the right half finds lies in the window that the left half has left.
    if (right.intersect ray (remaining w first)).isSome then
      first.toList ++ right.limits ray (remaining w first)
    else left.limits ray w

theorem head?_foldl_extend (items : List (Primitive α)) (hits : List (Hit α)) :
    (items.foldl (extend ray w) hits).head? =
      items.foldl (fun closest p => (p.intersect ray (remaining w closest)).or closest)
        hits.head? := by
  induction items generalizing hits with
  | nil => rfl
  | cons p items ih =>
      rw [List.foldl_cons, List.foldl_cons, ih, extend, List.head?_append, Option.head?_toList]

theorem head?_trail (items : List (Primitive α)) (ray : Ray α) (w : Window α) :
    (trail items ray w).head? = scan items ray w := head?_foldl_extend items []

def Found (seen : List (Primitive α)) (ray : Ray α) (w : Window α) (hits : List (Hit α)) : Prop :=
  ∀ later h earlier, hits = later ++ h :: earlier →
    ∃ p ∈ seen, p.intersect ray (remaining w earlier.head?) = some h

theorem Found.extend (hfound : Found seen ray w hits) (p : Primitive α) :
    Found (seen ++ [p]) ray w (extend ray w hits p) := by
  intro later h earlier heq
  have hbefore {later : List (Hit α)} (heq : hits = later ++ h :: earlier) :
      ∃ q ∈ seen ++ [p], q.intersect ray (remaining w earlier.head?) = some h := by
    obtain ⟨q, hq, hhit⟩ := hfound later h earlier heq
    exact ⟨q, List.mem_append_left _ hq, hhit⟩
  unfold BoxTree.extend at heq
  cases hp : p.intersect ray (remaining w hits.head?) with
  | none =>
      rw [hp] at heq
      exact hbefore heq
  | some g =>
      rw [hp] at heq
      cases later with
      | nil =>
          cases heq
          exact ⟨p, List.mem_append_right _ (List.mem_singleton_self p), hp⟩
      | cons g' later => exact hbefore (List.cons.inj heq).2

theorem Found.foldl_extend (hfound : Found seen ray w hits) (items : List (Primitive α)) :
    Found (seen ++ items) ray w (items.foldl (BoxTree.extend ray w) hits) := by
  induction items generalizing seen hits with
  | nil => rwa [List.append_nil]
  | cons p items ih =>
      rw [List.append_cons]
      exact ih (hfound.extend p)

theorem trail_found (items : List (Primitive α)) (ray : Ray α) (w : Window α) :
    Found items ray w (trail items ray w) := by
  have hnone : Found [] ray w [] := by
    intro later h earlier heq
    exact absurd heq.symm (List.append_ne_nil_of_right_ne_nil later (List.cons_ne_nil h earlier))
  exact hnone.foldl_extend items

variable [OrderedScalar α]

theorem of_intersect_remaining {p : Primitive α} (hvolume : p.IsVolume) {first : Option (Hit α)}
    (hhit : p.intersect ray (remaining w first) = some h) :
    ∃ full, p.intersect ray w = some full ∧ h = full.cutAll first.toList := by
  cases first with
  | none => exact ⟨h, hhit, rfl⟩
  | some g =>
      obtain ⟨solid, owner⟩ := p
      obtain ⟨box, rfl⟩ := hvolume
      exact Primitive.of_intersectVolume_upTo hhit

theorem of_trail_eq {later earlier : List (Hit α)} (hvolumes : ∀ p ∈ items, p.IsVolume)
    (htrail : trail items ray w = later ++ h :: earlier) :
    ∃ p ∈ items, ∃ full, p.intersect ray w = some full ∧ h = full.cutAll earlier.head?.toList := by
  obtain ⟨p, hp, hhit⟩ := trail_found items ray w later h earlier htrail
  exact ⟨p, hp, of_intersect_remaining (hvolumes p hp) hhit⟩

/-- The hit found among volumes is one of their own hits, cut off at the limits. -/
theorem of_intersect_volumes {tree : BoxTree α} (hvolumes : ∀ p ∈ tree.items, p.IsVolume)
    (hhit : tree.intersect ray w = some h) :
    ∃ p ∈ tree.items, ∃ full, p.intersect ray w = some full ∧
      h = full.cutAll (tree.limits ray w) := by
  induction tree generalizing w h with
  | empty => cases hhit
  | leaf bounds items =>
      unfold intersect at hhit
      split at hhit
      · rw [← head?_trail] at hhit
        obtain ⟨earlier, htrail⟩ := List.head?_eq_some_iff.mp hhit
        have hcut := of_trail_eq hvolumes (show trail items ray w = [] ++ h :: earlier from htrail)
        simpa only [limits, htrail, List.tail_cons] using hcut
      · cases hhit
  | branch bounds left right ihLeft ihRight =>
      obtain ⟨hleftVolumes, hrightVolumes⟩ := List.forall_mem_append.mp hvolumes
      unfold intersect at hhit
      split at hhit
      · unfold limits
        dsimp only at hhit ⊢
        cases hright : right.intersect ray (remaining w (left.intersect ray w)) with
        | none =>
            rw [hright, Option.none_or] at hhit
            obtain ⟨p, hp, hcut⟩ := ihLeft hleftVolumes hhit
            exact ⟨p, List.mem_append_left _ hp, hcut⟩
        | some g =>
            rw [hright, Option.some_or] at hhit
            cases hhit
            -- The right half was searched up to the hit of the left one, which joins its limits.
            obtain ⟨p, hp, narrow, hnarrow, hcut⟩ := ihRight hrightVolumes hright
            obtain ⟨full, hfull, rfl⟩ := of_intersect_remaining (hrightVolumes p hp) hnarrow
            refine ⟨p, List.mem_append_right _ hp, full, hfull, ?_⟩
            rw [Option.isSome_some, if_pos rfl, ← Hit.cutAll_append]
            exact hcut
      · cases hhit

theorem of_mem_limits {tree : BoxTree α} (hvolumes : ∀ p ∈ tree.items, p.IsVolume) {g : Hit α}
    (hg : g ∈ tree.limits ray w) :
    ∃ p ∈ tree.items, ∃ full, p.intersect ray w = some full ∧ g.SameEntry full := by
  induction tree generalizing w with
  | empty => cases hg
  | leaf bounds items =>
      unfold limits at hg
      obtain ⟨earlier, htail⟩ := List.head?_eq_some_iff.mp (Option.mem_toList.mp hg)
      obtain ⟨h, htrail⟩ : ∃ h, trail items ray w = [h] ++ g :: earlier := by
        cases hhits : trail items ray w with
        | nil =>
            rw [hhits] at htail
            cases htail
        | cons h hits =>
            rw [hhits] at htail
            exact ⟨h, congrArg (h :: ·) htail⟩
      obtain ⟨p, hp, full, hfull, rfl⟩ := of_trail_eq hvolumes htrail
      exact ⟨p, hp, full, hfull, rfl⟩
  | branch bounds left right ihLeft ihRight =>
      obtain ⟨hleftVolumes, hrightVolumes⟩ := List.forall_mem_append.mp hvolumes
      unfold limits at hg
      dsimp only at hg
      split at hg
      · rcases List.mem_append.mp hg with hg | hg
        · obtain ⟨p, hp, full, hfull, rfl⟩ :=
            of_intersect_volumes hleftVolumes (Option.mem_toList.mp hg)
          exact ⟨p, List.mem_append_left _ hp, full, hfull, rfl⟩
        · obtain ⟨p, hp, narrow, hnarrow, hsame⟩ := ihRight hrightVolumes hg
          obtain ⟨full, hfull, rfl⟩ := of_intersect_remaining (hrightVolumes p hp) hnarrow
          exact ⟨p, List.mem_append_right _ hp, full, hfull, hsame⟩
      · obtain ⟨p, hp, hentry⟩ := ihLeft hleftVolumes hg
        exact ⟨p, List.mem_append_left _ hp, hentry⟩

/-- A search among volumes reports the exit of the volume that it finds, cut off at the hits up to
which that volume was tried. It is the exit in the full window if and only if none of them cuts it
off. -/
theorem intersect_volumes_exit {ps : List (Primitive Float32)} (hvolumes : ∀ p ∈ ps, p.IsVolume)
    {tree : BoxTree Float32} (htree : ofList? ps = some tree) {ray : Ray Float32}
    {w : Window Float32} {h : Hit Float32} (hhit : tree.intersect ray w = some h) :
    ∃ b ∈ ps, ∃ full, b.intersect ray w = some full ∧
      h = { full with tExit := ((tree.limits ray w).map Hit.t).foldl lesser full.tExit } ∧
      (h.tExit = full.tExit ↔ ∀ g ∈ tree.limits ray w, lesser full.tExit g.t = full.tExit) ∧
      ∀ g ∈ tree.limits ray w,
        ∃ p ∈ ps, ∃ entry, p.intersect ray w = some entry ∧ g.SameEntry entry := by
  have hperm := perm_of_ofList? htree
  have hitems : ∀ p ∈ tree.items, p.IsVolume := fun p hp => hvolumes p (hperm.mem_iff.mp hp)
  obtain ⟨b, hb, full, hfull, rfl⟩ := of_intersect_volumes hitems hhit
  refine ⟨b, hperm.mem_iff.mp hb, full, hfull, rfl, ?_, ?_⟩
  · refine (foldl_lesser_eq_self_iff fun _ _ => Binary32.eq_of_not_number).trans ?_
    exact List.forall_mem_map
  · intro g hg
    obtain ⟨p, hp, hentry⟩ := of_mem_limits hitems hg
    exact ⟨p, hperm.mem_iff.mp hp, hentry⟩

def overlapping : List (Primitive Float32) :=
  [⟨.volume ⟨⟨-1, -1, -4⟩, ⟨1, 1, -2⟩⟩, 0⟩, ⟨.volume ⟨⟨-1, -1, -3⟩, ⟨1, 1, -1⟩⟩, 1⟩]

/-- The nearer box is left at 3, but the search reports 2, where the farther one is entered. -/
theorem exit_of_nearer_volume_cut :
    ((ofList? overlapping).bind (·.intersect downward (.startingAt 1e-3))).map
        (fun h => (h.owner, h.t, h.tExit)) = some (1, 1, 2) ∧
      (overlapping[1].intersect downward (.startingAt 1e-3)).map
        (fun h => (h.owner, h.t, h.tExit)) = some (1, 1, 3) := by
  decide +kernel

theorem intersect_overlapping_exit :
    (∀ p ∈ overlapping, p.IsVolume) ∧ ∃ tree h, ofList? overlapping = some tree ∧
      tree.intersect downward (.startingAt 1e-3) = some h ∧
      ∃ b ∈ overlapping, ∃ full, b.intersect downward (.startingAt 1e-3) = some full ∧
        h = { full with tExit := lesser full.tExit 2 } := by
  have hvolumes : ∀ p ∈ overlapping, p.IsVolume :=
    List.forall_mem_cons.mpr ⟨⟨_, rfl⟩, List.forall_mem_singleton.mpr ⟨_, rfl⟩⟩
  have hrun : ((ofList? overlapping).map fun tree =>
      ((tree.intersect downward (.startingAt 1e-3)).isSome,
        (tree.limits downward (.startingAt 1e-3)).map Hit.t)) = some (true, [2]) := by
    decide +kernel
  obtain ⟨tree, htree, hrun⟩ := Option.map_eq_some_iff.mp hrun
  obtain ⟨hsome, hlimits⟩ := Prod.mk.inj hrun
  obtain ⟨h, hhit⟩ := Option.isSome_iff_exists.mp hsome
  obtain ⟨b, hb, full, hfull, hcut, _⟩ := intersect_volumes_exit hvolumes htree hhit
  rw [hlimits] at hcut
  exact ⟨hvolumes, tree, h, htree, hhit, b, hb, full, hfull, hcut⟩

end BoxTree

end TileTracer
