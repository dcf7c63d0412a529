import TileTracer.Proofs.HitFormulas
import TileTracer.Proofs.VolumeExit

namespace TileTracer

open Scalar OrderedScalar

/-- A surface met strictly inside a window. -/
structure Hit.MetIn {α : Type} [Scalar α] (h : Hit α) (w : Window α) : Prop where
  exit : h.tExit = h.t
  lower : w.lower < h.t
  upper : h.t < w.upper

/-- A volume crossed inside a window. -/
structure Hit.CrossedIn {α : Type} [Scalar α] (h : Hit α) (w : Window α) : Prop where
  lower : w.lower ≤ h.t
  crosses : h.t < h.tExit
  upper : h.tExit ≤ w.upper

namespace Hit

variable {α : Type} [Scalar α] [OrderedScalar α] {w : Window α} {m : α} {h : Hit α}

theorem MetIn.of_upTo (hh : h.MetIn (w.upTo m)) (hw : w.upper ≤ w.upper) : h.MetIn w where
  exit := hh.exit
  lower := hh.lower
  upper := lt_of_lt_of_le hh.upper (lesser_le_left hw)

theorem CrossedIn.of_upTo (hh : h.CrossedIn (w.upTo m)) (hw : w.upper ≤ w.upper) :
    h.CrossedIn w where
  lower := hh.lower
  crosses := hh.crosses
  upper := le_trans hh.upper (lesser_le_left hw)

end Hit

namespace Box

variable {α : Type} [Scalar α] [OrderedScalar α] {box : Box α} {ray : Ray α} {w v : Window α}

theorem lower_le_of_intersect (hw : w.lower ≤ w.lower) (h : box.intersect ray w = some v) :
    w.lower ≤ v.lower := by
  obtain ⟨v₁, v₂, h₁, h₂, h₃⟩ := intersect_eq_some.mp h
  have hclip {axis : Axis} {a b : Window α} (ha : a.lower ≤ a.lower)
      (hab : box.clip ray axis a = some b) : a.lower ≤ b.lower :=
    (clip_eq_some.mp hab).2.1 ▸ le_greater_right ha
  have hx := hclip hw h₁
  have hy := hclip (self_le_of_le_right hx) h₂
  exact le_trans hx (le_trans hy (hclip (self_le_of_le_right hy) h₃))

/-- The lower end need not be a number for this. -/
theorem upper_le_of_intersect (hw : w.upper ≤ w.upper) (h : box.intersect ray w = some v) :
    v.upper ≤ w.upper := by
  obtain ⟨v₁, v₂, h₁, h₂, h₃⟩ := intersect_eq_some.mp h
  have hclip {axis : Axis} {a b : Window α} (ha : a.upper ≤ a.upper)
      (hab : box.clip ray axis a = some b) : b.upper ≤ a.upper :=
    (clip_eq_some.mp hab).2.2 ▸ lesser_le_right ha
  have hx := hclip hw h₁
  have hy := hclip (self_le_of_le_left hx) h₂
  exact le_trans (hclip (self_le_of_le_left hy) h₃) (le_trans hy hx)

end Box

namespace Primitive

variable {α : Type} [Scalar α] {p : Primitive α} {ray : Ray α} {w : Window α} {h : Hit α}

theorem owner_of_intersect (hhit : p.intersect ray w = some h) : h.owner = p.owner := by
  rcases p with ⟨solid, owner⟩
  cases solid with
  | sphere center radius =>
      obtain ⟨t, _, rfl⟩ := Option.map_eq_some_iff.mp hhit
      rfl
  | triangle a b c =>
      obtain ⟨_, rfl⟩ := intersectTriangle_eq_some_iff.mp hhit
      rfl
  | volume bounds =>
      obtain ⟨v, _, _, rfl⟩ := intersectVolume_eq_some.mp hhit
      rfl

theorem point_of_intersect (hhit : p.intersect ray w = some h) : h.point = ray.at h.t := by
  rcases p with ⟨solid, owner⟩
  cases solid with
  | sphere center radius =>
      obtain ⟨t, _, rfl⟩ := Option.map_eq_some_iff.mp hhit
      rfl
  | triangle a b c =>
      obtain ⟨_, rfl⟩ := intersectTriangle_eq_some_iff.mp hhit
      rfl
  | volume bounds =>
      obtain ⟨v, _, _, rfl⟩ := intersectVolume_eq_some.mp hhit
      rfl

theorem metIn_of_intersect (hsurface : ¬ p.IsVolume) (hhit : p.intersect ray w = some h) :
    h.MetIn w := by
  rcases p with ⟨solid, owner⟩
  cases solid with
  | sphere center radius =>
      obtain ⟨t, hroot, rfl⟩ := Option.map_eq_some_iff.mp hhit
      obtain ⟨hlower, hupper⟩ := Window.surrounds_eq_true.mp (met_of_sphereRoot hroot).inside
      exact ⟨rfl, hlower, hupper⟩
  | triangle a b c =>
      obtain ⟨hmet, rfl⟩ := intersectTriangle_eq_some_iff.mp hhit
      obtain ⟨hlower, hupper⟩ := Window.surrounds_eq_true.mp hmet.inside
      exact ⟨rfl, hlower, hupper⟩
  | volume bounds => exact absurd ⟨bounds, rfl⟩ hsurface

variable [OrderedScalar α]

theorem tExit_le_of_intersect (hvolume : p.IsVolume) (hw : w.upper ≤ w.upper)
    (hhit : p.intersect ray w = some h) : h.tExit ≤ w.upper := by
  obtain ⟨solid, owner⟩ := p
  obtain ⟨box, rfl⟩ := hvolume
  obtain ⟨v, hv, _, rfl⟩ := intersectVolume_eq_some.mp hhit
  exact Box.upper_le_of_intersect hw hv

theorem crossedIn_of_intersect (hvolume : p.IsVolume) (hw : w.Bounded)
    (hhit : p.intersect ray w = some h) : h.CrossedIn w := by
  obtain ⟨solid, owner⟩ := p
  obtain ⟨box, rfl⟩ := hvolume
  obtain ⟨v, hv, hle, rfl⟩ := intersectVolume_eq_some.mp hhit
  have hb := Box.intersect_bounded hw hv
  exact ⟨Box.lower_le_of_intersect hw.lower hv, lt_of_not_le hb.upper hb.lower hle,
    Box.upper_le_of_intersect hw.upper hv⟩

end Primitive

namespace BoxTree

variable {α : Type} [Scalar α] {motive : Window α → Hit α → Prop} {items : List (Primitive α)}
  {ray : Ray α} {w : Window α} {h : Hit α}

theorem of_remaining (narrowed : ∀ w m h, motive (w.upTo m) h → motive w h)
    {first : Option (Hit α)} (hh : motive (remaining w first) h) : motive w h := by
  cases first with
  | none => exact hh
  | some g => exact narrowed w g.t h hh

theorem foldl_induction (narrowed : ∀ w m h, motive (w.upTo m) h → motive w h)
    (primitive : ∀ p ∈ items, ∀ w h, p.intersect ray w = some h → motive w h)
    {first : Option (Hit α)} (hfirst : ∀ g, first = some g → motive w g)
    (hhit : items.foldl (fun closest p => (p.intersect ray (remaining w closest)).or closest)
      first = some h) : motive w h := by
  induction items generalizing first with
  | nil => exact hfirst h hhit
  | cons p items ih =>
      refine ih (fun q hq => primitive q (List.mem_cons_of_mem p hq)) ?_ hhit
      intro g hg
      rcases Option.or_eq_some_iff.mp hg with hp | ⟨_, hg⟩
      · exact of_remaining narrowed (primitive p List.mem_cons_self _ g hp)
      · exact hfirst g hg

/-- What is true of the hits of the primitives in every window, and stays so when the window is
widened, is true of whatever a search finds. -/
theorem intersect_induction (narrowed : ∀ w m h, motive (w.upTo m) h → motive w h)
    {tree : BoxTree α}
    (primitive : ∀ p ∈ tree.items, ∀ w h, p.intersect ray w = some h → motive w h)
    (hhit : tree.intersect ray w = some h) : motive w h := by
  induction tree generalizing w h with
  | empty => cases hhit
  | leaf bounds items =>
      unfold intersect at hhit
      split at hhit
      · have hnone : ∀ g, (none : Option (Hit α)) = some g → motive w g :=
          fun g hg => absurd hg.symm (Option.some_ne_none g)
        exact foldl_induction narrowed primitive hnone hhit
      · cases hhit
  | branch bounds left right ihLeft ihRight =>
      obtain ⟨hleft, hright⟩ := List.forall_mem_append.mp primitive
      unfold intersect at hhit
      split at hhit
      · rcases Option.or_eq_some_iff.mp hhit with hsecond | ⟨_, hfirst⟩
        · exact of_remaining narrowed (ihRight hright hsecond)
        · exact ihLeft hleft hfirst
      · cases hhit

theorem exists_owner_of_intersect {tree : BoxTree α} (hhit : tree.intersect ray w = some h) :
    ∃ p ∈ tree.items, h.owner = p.owner := by
  refine intersect_induction (motive := fun _ h => ∃ p ∈ tree.items, h.owner = p.owner)
    (fun _ _ _ hh => hh) ?_ hhit
  intro p hp w h hh
  exact ⟨p, hp, Primitive.owner_of_intersect hh⟩

variable [OrderedScalar α]

theorem metIn_of_intersect {tree : BoxTree α} (hsurfaces : ∀ p ∈ tree.items, ¬ p.IsVolume)
    (hw : w.upper ≤ w.upper) (hhit : tree.intersect ray w = some h) : h.MetIn w := by
  refine intersect_induction (motive := fun w h => w.upper ≤ w.upper → h.MetIn w) ?_ ?_ hhit hw
  · exact fun w m h hmet hw => (hmet (lesser_le_self hw)).of_upTo hw
  · exact fun p hp _ _ hh _ => Primitive.metIn_of_intersect (hsurfaces p hp) hh

theorem tExit_le_of_intersect {tree : BoxTree α} (hvolumes : ∀ p ∈ tree.items, p.IsVolume)
    (hw : w.upper ≤ w.upper) (hhit : tree.intersect ray w = some h) : h.tExit ≤ w.upper := by
  refine intersect_induction (motive := fun w h => w.upper ≤ w.upper → h.tExit ≤ w.upper)
    ?_ ?_ hhit hw
  · exact fun w m h hle hw => le_trans (hle (lesser_le_self hw)) (lesser_le_left hw)
  · exact fun p hp _ _ hh hw => Primitive.tExit_le_of_intersect (hvolumes p hp) hw hh

theorem crossedIn_of_intersect {tree : BoxTree α} (hvolumes : ∀ p ∈ tree.items, p.IsVolume)
    (hw : w.Bounded) (hhit : tree.intersect ray w = some h) : h.CrossedIn w := by
  refine intersect_induction (motive := fun w h => w.Bounded → h.CrossedIn w) ?_ ?_ hhit hw
  · exact fun w m h hcrossed hw => (hcrossed hw.upTo).of_upTo hw.upper
  · exact fun p hp _ _ hh hw => Primitive.crossedIn_of_intersect (hvolumes p hp) hw hh

end BoxTree

end TileTracer
