import TileTracer.Proofs.Binary32Arithmetic
import TileTracer.Proofs.BoxTreeConstruction
import TileTracer.Proofs.BoxTreeSearch

namespace TileTracer.BoxTree

open Scalar OrderedScalar

/-- Every box is entered, and not just touched, no later than any primitive below it is met. -/
def entersFirst {α : Type} [Scalar α] (tree : BoxTree α) (ray : Ray α) (w : Window α) : Bool :=
  tree.nodes.all fun node => node.items.all fun p =>
    (p.intersect ray w).all fun h =>
      (node.bounds.intersect ray w).any fun v => v.lower < v.upper && v.lower ≤ h.t

theorem Conservative.of_entersFirst {α : Type} [Scalar α] [RootedScalar α] {tree : BoxTree α}
    {ray : Ray α} {w : Window α} (hw : w.Bounded) (h : tree.entersFirst ray w = true) :
    tree.Conservative ray w := by
  intro node hnode p hp m hsome
  have hbox (full : Hit α) (hfull : p.intersect ray w = some full) :
      ∃ v, node.bounds.intersect ray w = some v ∧ v.lower < v.upper ∧ v.lower ≤ full.t := by
    have hp := List.all_eq_true.mp (List.all_eq_true.mp h node hnode) p hp
    rw [hfull, Option.all_some, Option.any_eq_true] at hp
    simpa using hp
  by_cases hm : m ≤ m
  · obtain ⟨narrow, hnarrow⟩ := Option.isSome_iff_exists.mp hsome
    obtain ⟨full, hfull, hlt, _⟩ := Primitive.of_intersect_upTo hw hm hnarrow
    obtain ⟨v, hv, hroom, hfirst⟩ := hbox full hfull
    have hleft : v.lower < lesser v.upper m :=
      (lt_lesser_iff (le_self_of_lt hroom).2 hm).mpr ⟨hroom, lt_of_le_of_lt hfirst hlt⟩
    rw [Box.meets, Box.intersect_upTo hw hm hv hleft]
    rfl
  · have hsame : w.upTo m = w := by rw [Window.upTo, lesser_not_number hm hw.upper]
    rw [hsame] at hsome ⊢
    obtain ⟨full, hfull⟩ := Option.isSome_iff_exists.mp hsome
    obtain ⟨v, hv, _⟩ := hbox full hfull
    rw [Box.meets, hv]
    rfl

/-- A tree over a list of primitives exists if the list can be sorted, and holds just these. A
search in any tree that holds them finds what trying each of them in the full window finds, as long
as the boxes of the tree hide no hit. -/
theorem intersect_nearest_of_conservative (ps : List (Primitive Float32)) :
    (Sortable ps → (ofList? ps).isSome) ∧
      (∀ tree, ofList? ps = some tree → tree.items.Perm ps) ∧
      ∀ tree : BoxTree Float32, tree.items.Perm ps → ∀ (ray : Ray Float32) (w : Window Float32),
        w.Bounded → tree.Conservative ray w →
        (tree.intersect ray w = none ↔ ∀ p ∈ ps, p.intersect ray w = none) ∧
          ∀ h, tree.intersect ray w = some h →
            (∃ p ∈ ps, ∃ full, p.intersect ray w = some full ∧ h = { full with tExit := h.tExit }) ∧
              ∀ p ∈ ps, ∀ full, p.intersect ray w = some full → h.t ≤ full.t := by
  refine ⟨ofList?_isSome, fun tree => perm_of_ofList?, ?_⟩
  intro tree hperm ray w hw hc
  have hnearest := (intersect_isNearest hw hc).of_perm hperm
  cases hresult : tree.intersect ray w with
  | none =>
      rw [hresult] at hnearest
      exact ⟨iff_of_true rfl hnearest, fun h hh => nomatch hh⟩
  | some h =>
      rw [hresult] at hnearest
      obtain ⟨p, hp, full, hfull, _⟩ := hnearest.1
      have hmet : ¬ ∀ p ∈ ps, p.intersect ray w = none := by
        intro hnone
        rw [hnone p hp] at hfull
        cases hfull
      refine ⟨iff_of_false (Option.some_ne_none h) hmet, ?_⟩
      rintro _ ⟨⟩
      exact hnearest

def downward : Ray Float32 := ⟨⟨0, 0, 0⟩, ⟨0, 0, -1⟩⟩

def fiveSpheres : List (Primitive Float32) :=
  [⟨.sphere ⟨0, 0, -5⟩ 0.5, 0⟩, ⟨.sphere ⟨0, 0, -3⟩ 0.5, 1⟩, ⟨.sphere ⟨3, 0, -5⟩ 0.5, 2⟩,
    ⟨.sphere ⟨6, 0, -5⟩ 0.5, 3⟩, ⟨.sphere ⟨9, 0, -5⟩ 0.5, 4⟩]

theorem intersect_five_spheres :
    ∃ tree h, ofList? fiveSpheres = some tree ∧
      tree.Conservative downward (.startingAt 1e-3) ∧
      tree.intersect downward (.startingAt 1e-3) = some h ∧ h.t = 2.5 ∧
      ∀ p ∈ fiveSpheres, ∀ full, p.intersect downward (.startingAt 1e-3) = some full →
        h.t ≤ full.t := by
  obtain ⟨hbuilds, hperm, hsearch⟩ := intersect_nearest_of_conservative fiveSpheres
  obtain ⟨tree, htree⟩ := Option.isSome_iff_exists.mp (hbuilds (.inl (by decide)))
  have hrun : ((ofList? fiveSpheres).map fun tree =>
      (tree.entersFirst downward (.startingAt 1e-3),
        (tree.intersect downward (.startingAt 1e-3)).map Hit.t)) = some (true, some 2.5) := by
    decide +kernel
  rw [htree, Option.map_some, Option.some.injEq, Prod.mk.injEq] at hrun
  obtain ⟨hfirst, hresult⟩ := hrun
  obtain ⟨h, hhit, ht⟩ := Option.map_eq_some_iff.mp hresult
  have hw : (Window.startingAt (1e-3 : Float32)).Bounded :=
    ⟨by decide +kernel, by decide +kernel⟩
  have hconservative : tree.Conservative downward (.startingAt 1e-3) := .of_entersFirst hw hfirst
  have hnearest := hsearch tree (hperm tree htree) downward _ hw hconservative
  exact ⟨tree, h, htree, hconservative, hhit, ht, (hnearest.2 h hhit).2⟩

end TileTracer.BoxTree
