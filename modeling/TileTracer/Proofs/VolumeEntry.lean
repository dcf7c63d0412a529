import TileTracer.Proofs.BoxTreeShape
import TileTracer.Proofs.FirstHits

namespace TileTracer

open Scalar OrderedScalar
open TileTracer.Random (Stream)

/-! ## Boxes around volumes -/

namespace Box

variable {α : Type} [Scalar α] [MonotoneScalar α] {box : Box α}

theorem grow_isNumber (h : box.IsNumber) (p : Vec3 α) : (box.grow p).IsNumber where
  low axis := by
    rw [grow, Vec3.along_lesser]
    exact lesser_le_self (h.low axis)
  high axis := by
    rw [grow, Vec3.along_greater]
    exact self_le_of_le_right (le_greater_left (h.high axis))

/-- A transformed box has numbers for its corners, whatever the images of its corners are. -/
theorem transformed_isNumber (box : Box α) (m : Transform α) : (box.transformed m).IsNumber := by
  unfold transformed
  generalize box.corners = corners
  have hempty : (empty : Box α).IsNumber :=
    empty_isNumber (le_self_of_lt MonotoneScalar.neg_infinity_lt_infinity).2
  generalize (empty : Box α) = acc at hempty ⊢
  induction corners generalizing acc with
  | nil => exact hempty
  | cons p corners ih => exact ih _ (grow_isNumber hempty (m.apply p))

end Box

namespace BoxTree

variable {α : Type} [Scalar α] {items : List (Primitive α)} {tree node : BoxTree α}

omit [Scalar α] in
theorem mem_items_of_mem_nodes (hnode : node ∈ tree.nodes) {p : Primitive α} (hp : p ∈ node.items) :
    p ∈ tree.items := by
  induction tree with
  | empty => cases hnode
  | leaf bounds items =>
      cases List.mem_singleton.mp hnode
      exact hp
  | branch bounds left right ihLeft ihRight =>
      rcases List.mem_cons.mp hnode with rfl | hnode
      · exact hp
      · exact List.mem_append.mpr ((List.mem_append.mp hnode).imp ihLeft ihRight)

variable [MonotoneScalar α]

theorem encloses_of_ofList? (htree : ofList? items = some tree)
    (hitems : ∀ p ∈ items, p.bounds.IsNumber) (hnode : node ∈ tree.nodes) {p : Primitive α}
    (hp : p ∈ node.items) : node.bounds.Encloses p.bounds := by
  unfold ofList? at htree
  split at htree
  · cases htree
    cases hnode
  · next hne =>
    have hhull := isHull_of_build? htree (mt List.isEmpty_iff.mpr hne) hitems node hnode
    exact hhull.encloses _ (List.mem_map_of_mem hp)

/-- No box of a tree over volumes hides one of them from a ray that meets boxes around boxes. -/
theorem conservative_of_volumes (htree : ofList? items = some tree)
    (hvolumes : ∀ p ∈ items, p.IsVolume) (hitems : ∀ p ∈ items, p.bounds.IsNumber) {ray : Ray α}
    (hray : ray.Invertible) (w : Window α) : tree.Conservative ray w := by
  intro node hnode p hp m hsome
  have hencloses := encloses_of_ofList? htree hitems hnode hp
  obtain ⟨h, hhit⟩ := Option.isSome_iff_exists.mp hsome
  obtain ⟨solid, owner⟩ := p
  have hmem := (perm_of_ofList? htree).mem_iff.mp (mem_items_of_mem_nodes hnode hp)
  obtain ⟨box, rfl⟩ := hvolumes _ hmem
  obtain ⟨v, hv, _⟩ := Primitive.intersectVolume_eq_some.mp hhit
  exact Box.meets_of_encloses hray hencloses (Option.isSome_iff_exists.mpr ⟨v, hv⟩)

end BoxTree

def Ray.NowhereInfinite (ray : Ray Float32) : Prop :=
  ∀ axis, ¬ ray.direction.along axis ≤ -infinity ∧ ¬ infinity ≤ ray.direction.along axis

theorem Ray.NowhereInfinite.invertible {ray : Ray Float32} (h : ray.NowhereInfinite) :
    ray.Invertible :=
  fun axis => Binary32.reciprocal_apart (h axis).1 (h axis).2

/-! ## Volumes of a committed world -/

namespace Scene

variable {instances : List Instance} {scene : Scene} {ps : List (Primitive Float32)}
  {p : Primitive Float32}

theorem primitives_of_medium {i : Instance} {medium : Medium} (h : i.medium? = some medium)
    (owner : Nat) :
    i.isVolume = true ∧
      i.primitives owner = some [⟨.volume (medium.bounds.transformed i.transform), owner⟩] := by
  obtain ⟨name, transform, content⟩ := i
  cases content with
  | volume m =>
      cases h
      exact ⟨rfl, rfl⟩
  | geometry shape material => cases h

theorem exists_medium {i : Instance} (h : i.isVolume = true) :
    ∃ medium, i.medium? = some medium := by
  obtain ⟨name, transform, content⟩ := i
  cases content with
  | volume m => exact ⟨m, rfl⟩
  | geometry shape material => cases h

theorem Flattened.mem_volumes_iff (hflat : Flattened Instance.isVolume instances ps) :
    p ∈ ps ↔ ∃ i medium, instances[p.owner]? = some i ∧ i.medium? = some medium ∧
      p.solid = .volume (medium.bounds.transformed i.transform) := by
  rw [hflat.mem_iff]
  constructor
  · rintro ⟨i, hi, hvolume, block, hblock, hp⟩
    obtain ⟨medium, hmedium⟩ := exists_medium hvolume
    cases hblock.symm.trans (primitives_of_medium hmedium p.owner).2
    exact ⟨i, medium, hi, hmedium, congrArg Primitive.solid (List.mem_singleton.mp hp)⟩
  · rintro ⟨i, medium, hi, hmedium, hsolid⟩
    obtain ⟨hvolume, hblock⟩ := primitives_of_medium hmedium p.owner
    exact ⟨i, hi, hvolume, _, hblock, List.mem_singleton.mpr (by rw [← hsolid])⟩

theorem DerivedFrom.volumes_conservative (hscene : scene.DerivedFrom instances)
    {ray : Ray Float32} (hray : ray.Invertible) (w : Window Float32) :
    scene.volumes.Conservative ray w := by
  obtain ⟨ps, hflat, htree⟩ := hscene.volumes
  refine BoxTree.conservative_of_volumes htree ?_ ?_ hray w
  · intro p hp
    obtain ⟨i, medium, _, _, hsolid⟩ := hflat.mem_volumes_iff.mp hp
    exact ⟨_, hsolid⟩
  · intro p hp
    obtain ⟨i, medium, _, _, hsolid⟩ := hflat.mem_volumes_iff.mp hp
    rw [Primitive.bounds, hsolid]
    exact Box.transformed_isNumber _ _

end Scene

namespace World

/-- The box of some volume instance with this medium is entered at `t` within the window. -/
def Enters (w : World) (ray : Ray Float32) (window : Window Float32) (medium : Medium)
    (t : Float32) : Prop :=
  ∃ i ∈ w.instances, i.medium? = some medium ∧
    ∃ inside, (medium.bounds.transformed i.transform).intersect ray window = some inside ∧
      inside.lower < inside.upper ∧ window.lower ≤ inside.lower ∧ t = inside.lower

/-- The media of the boxes entered within the window, with where each of them is entered. -/
def entries (w : World) (ray : Ray Float32) (window : Window Float32) :
    List (Medium × Float32) :=
  w.instances.filterMap fun i => do
    let medium ← i.medium?
    let inside ← (medium.bounds.transformed i.transform).intersect ray window
    if inside.lower < inside.upper ∧ window.lower ≤ inside.lower then
      some (medium, inside.lower) else none

def entered? (w : World) (ray : Ray Float32) (window : Window Float32) :
    Option (Hit Float32 × Medium) :=
  (w.traceVolume ray window).bind fun entry => (w.medium? entry.owner).map (entry, ·)

def withoutVolumes (w : World) : World :=
  { w with scene := w.scene.map fun scene => { scene with volumes := .empty } }

variable {policy : BuildPolicy} {commands : List WorldCommand} {w : World} {ray : Ray Float32}
  {window : Window Float32} {medium : Medium} {t : Float32}

theorem Enters.window_lower (h : w.Enters ray window medium t) : window.lower ≤ window.lower := by
  obtain ⟨_, _, _, _, _, _, hlower, _⟩ := h
  exact self_le_of_le_left hlower

theorem mem_entries_iff : (medium, t) ∈ w.entries ray window ↔ w.Enters ray window medium t := by
  unfold entries Enters
  simp only [List.mem_filterMap, bind, Option.bind_eq_some_iff]
  refine exists_congr fun i => and_congr_right fun _ => ?_
  constructor
  · rintro ⟨m, hmedium, inside, hinside, hsome⟩
    split at hsome
    · next h =>
      cases hsome
      exact ⟨hmedium, inside, hinside, h.1, h.2, rfl⟩
    · cases hsome
  · rintro ⟨hmedium, inside, hinside, hlt, hlower, rfl⟩
    exact ⟨medium, hmedium, inside, hinside, if_pos ⟨hlt, hlower⟩⟩

theorem mem_volumes_iff (hrun : run (.withPolicy policy) commands = w) {p : Primitive Float32} :
    p ∈ w.volumes.items ↔ ∃ i medium, w.instances[p.owner]? = some i ∧ i.medium? = some medium ∧
      p.solid = .volume (medium.bounds.transformed i.transform) := by
  cases hscene : w.scene with
  | none =>
      have hempty : w.volumes = .empty := by rw [volumes, hscene]; rfl
      have hinstances : w.instances = [] := by rw [WorldOf.instances, hscene]; rfl
      rw [hempty, hinstances]
      refine iff_of_false List.not_mem_nil ?_
      rintro ⟨_, _, hi, _⟩
      cases hi
  | some scene =>
      have hvolumes : w.volumes = scene.volumes := by rw [volumes, hscene]; rfl
      obtain ⟨ps, hflat, htree⟩ := (derived_of_run hrun hscene).volumes
      rw [hvolumes, (BoxTree.perm_of_ofList? htree).mem_iff, hflat.mem_volumes_iff]

theorem volumes_conservative (hrun : run (.withPolicy policy) commands = w)
    (hray : ray.Invertible) (window : Window Float32) : w.volumes.Conservative ray window := by
  cases hscene : w.scene with
  | none =>
      rw [volumes, hscene]
      intro node hnode
      cases hnode
  | some scene =>
      rw [volumes, hscene]
      exact (derived_of_run hrun hscene).volumes_conservative hray window

theorem enters_iff (hrun : run (.withPolicy policy) commands = w) (hwindow : window.Bounded) :
    w.Enters ray window medium t ↔ ∃ p ∈ w.volumes.items, ∃ full,
      p.intersect ray window = some full ∧ w.medium? p.owner = some medium ∧ t = full.t := by
  constructor
  · rintro ⟨i, hi, hmedium, inside, hinside, hlt, _, rfl⟩
    obtain ⟨n, hn⟩ := List.mem_iff_getElem?.mp hi
    refine ⟨⟨.volume (medium.bounds.transformed i.transform), n⟩,
      (mem_volumes_iff hrun).mpr ⟨i, medium, hn, hmedium, rfl⟩, _,
      Primitive.intersectVolume_eq_some.mpr ⟨inside, hinside, ?_, rfl⟩, ?_, rfl⟩
    · exact fun hle => not_lt_of_le hle hlt
    · rw [medium?_eq_instances, hn]
      exact hmedium
  · rintro ⟨p, hp, full, hfull, howner, rfl⟩
    obtain ⟨i, m, hi, hmedium, hsolid⟩ := (mem_volumes_iff hrun).mp hp
    rw [medium?_eq_instances, hi] at howner
    cases hmedium.symm.trans howner
    rw [Primitive.intersect, hsolid] at hfull
    obtain ⟨inside, hinside, hle, rfl⟩ := Primitive.intersectVolume_eq_some.mp hfull
    have hbounded := Box.intersect_bounded hwindow hinside
    exact ⟨i, List.mem_of_getElem? hi, hmedium, inside, hinside,
      lt_of_not_le hbounded.upper hbounded.lower hle,
      Box.lower_le_of_intersect hwindow.lower hinside, rfl⟩

theorem entered?_cases (hrun : run (.withPolicy policy) commands = w) (hwindow : window.Bounded)
    (hray : ray.Invertible) :
    (w.entered? ray window = none ∧ ∀ medium t, ¬ w.Enters ray window medium t) ∨
      ∃ entry medium, w.entered? ray window = some (entry, medium) ∧
        w.Enters ray window medium entry.t ∧
        ∀ other t, w.Enters ray window other t → entry.t ≤ t := by
  have hnearest := BoxTree.intersect_isNearest hwindow (volumes_conservative hrun hray window)
  unfold entered?
  rw [traceVolume_eq]
  cases hhit : w.volumes.intersect ray window with
  | none =>
      rw [hhit] at hnearest
      refine .inl ⟨rfl, fun medium t henters => ?_⟩
      obtain ⟨p, hp, full, hfull, _⟩ := (enters_iff hrun hwindow).mp henters
      cases (hnearest p hp).symm.trans hfull
  | some entry =>
      rw [hhit] at hnearest
      obtain ⟨⟨p, hp, full, hfull, hentry⟩, hleast⟩ := hnearest
      obtain ⟨i, medium, hi, hmedium, _⟩ := (mem_volumes_iff hrun).mp hp
      have howner : w.medium? p.owner = some medium := by
        rw [medium?_eq_instances, hi]
        exact hmedium
      have hsame : entry.owner = p.owner := by
        rw [← Primitive.owner_of_intersect hfull, hentry]
      refine .inr ⟨entry, medium, ?_, ?_, ?_⟩
      · rw [Option.bind_some, hsame, howner]
        rfl
      · exact (enters_iff hrun hwindow).mpr ⟨p, hp, full, hfull, howner, hentry.t_eq⟩
      · intro other t henters
        obtain ⟨q, hq, full', hfull', _, rfl⟩ := (enters_iff hrun hwindow).mp henters
        exact hleast q hq full' hfull'

end World

/-! ## The medium of a segment -/

namespace Path

/-- The test of a volume that is entered: whether the path scatters in its medium. -/
def flight (ray : Ray Float32) (entry : Hit Float32) (medium : Medium) (rng : Stream) :
    Option (Float32 × Medium) × Stream :=
  let (u, rng) := rng.unit
  let t := freeFlight ray entry medium.density u
  if 0.0 < medium.density && t < entry.tExit then (some (t, medium), rng) else (none, rng)

theorem mediumEvent_eq (world : World) (ray : Ray Float32) (window : Window Float32)
    (rng : Stream) :
    mediumEvent world ray window rng = match world.entered? ray window with
      | none => (none, rng)
      | some (entry, medium) => flight ray entry medium rng := by
  unfold mediumEvent World.entered?
  cases world.traceVolume ray window with
  | none => rfl
  | some entry =>
      dsimp only [Option.bind_some]
      cases world.medium? entry.owner <;> rfl

theorem flight_of_thin {medium : Medium} (hthin : ¬ 0.0 < medium.density) (ray : Ray Float32)
    (entry : Hit Float32) (rng : Stream) : flight ray entry medium rng = (none, rng.unit.2) := by
  unfold flight
  dsimp only
  rw [decide_eq_false hthin, Bool.false_and, if_neg Bool.false_ne_true]

variable (settings : Settings) (world : World) (p : Path)

/-- The part of the ray in front of the nearest surface. -/
def clearWindow : Window Float32 :=
  let w := Window.startingAt settings.epsilon
  w.upTo (((world.trace p.ray w).map (·.t)).getD infinity)

/-- The medium that the free flight of the segment is tested in. -/
def tested? : Option Medium :=
  (world.entered? p.ray (p.clearWindow settings world)).map (·.2)

theorem clearWindow_bounded (h : settings.epsilon ≤ settings.epsilon) :
    (p.clearWindow settings world).Bounded :=
  ⟨h, lesser_le_self infinity_le_self⟩

/-- A segment on which nothing scatters in a medium is one of the world without volumes. -/
theorem segment_withoutVolumes {rng : Stream}
    (hevent : mediumEvent world p.ray (p.clearWindow settings world) p.rng = (none, rng))
    (screen : Vec2 Float32) (isFirst : Bool) :
    p.segment settings world screen isFirst =
      { p with rng }.segment settings world.withoutVolumes screen isFirst := by
  have hnone (window : Window Float32) (rng : Stream) :
      mediumEvent world.withoutVolumes p.ray window rng = (none, rng) := by
    have htrace : world.withoutVolumes.traceVolume p.ray window = none := by
      unfold World.traceVolume World.withoutVolumes
      cases world.scene <;> rfl
    unfold mediumEvent
    rw [htrace]
  have htrace (window : Window Float32) :
      world.withoutVolumes.trace p.ray window = world.trace p.ray window := by
    unfold World.trace World.withoutVolumes
    cases world.scene <;> rfl
  have hmaterial (owner : Nat) : world.withoutVolumes.material? owner = world.material? owner := by
    unfold World.material? World.withoutVolumes
    cases world.scene <;> rfl
  unfold clearWindow at hevent
  unfold segment
  simp only [hnone, htrace, hmaterial, hevent]

end Path

namespace World

variable {policy : BuildPolicy} {commands : List WorldCommand} {w : World}

/-- In a world that any commands have led to, on a segment of any path in no infinite direction: if
a medium of positive density is entered in front of the nearest surface, and before every medium
there without one, the flight is tested in some medium of positive density. It is tested in the
medium that is entered first. If that is one without density, the segment goes on, a random number
later, as if there were no volumes at all. -/
theorem tests_dense_medium (hrun : run (.withPolicy policy) commands = w) (settings : Settings)
    (p : Path) (hray : p.ray.NowhereInfinite) :
    let window := p.clearWindow settings w
    (∀ dense t, w.Enters p.ray window dense t → 0.0 < dense.density →
      (∀ thin s, w.Enters p.ray window thin s → ¬ 0.0 < thin.density → t < s) →
      ∃ medium, p.tested? settings w = some medium ∧ 0.0 < medium.density) ∧
    (settings.epsilon ≤ settings.epsilon → ∀ medium, p.tested? settings w = some medium →
      ∃ t, w.Enters p.ray window medium t ∧
        ∀ other s, w.Enters p.ray window other s → t ≤ s) ∧
    ∀ thin, p.tested? settings w = some thin → ¬ 0.0 < thin.density → ∀ screen isFirst,
      p.segment settings w screen isFirst =
        { p with rng := p.rng.unit.2 }.segment settings w.withoutVolumes screen isFirst := by
  intro window
  have hcases (hepsilon : settings.epsilon ≤ settings.epsilon) :=
    entered?_cases hrun (p.clearWindow_bounded settings w hepsilon) hray.invertible
  refine ⟨?_, ?_, ?_⟩
  · intro dense t hdense hpositive hthin
    rcases hcases hdense.window_lower with ⟨_, hnone⟩ | ⟨entry, medium, hentered, henters, hfirst⟩
    · exact absurd hdense (hnone dense t)
    · refine ⟨medium, by rw [Path.tested?, hentered]; rfl, ?_⟩
      by_contra hnot
      exact not_lt_of_le (hfirst dense t hdense) (hthin medium entry.t henters hnot)
  · intro hepsilon medium htested
    rcases hcases hepsilon with ⟨hnone, _⟩ | ⟨entry, m, hentered, henters, hfirst⟩
    · rw [Path.tested?, hnone] at htested
      cases htested
    · rw [Path.tested?, hentered] at htested
      cases htested
      exact ⟨entry.t, henters, hfirst⟩
  · intro thin htested hthin screen isFirst
    obtain ⟨⟨entry, m⟩, hentered, rfl⟩ := Option.map_eq_some_iff.mp htested
    have hevent : Path.mediumEvent w p.ray window p.rng = (none, p.rng.unit.2) := by
      rw [Path.mediumEvent_eq, hentered]
      exact Path.flight_of_thin hthin p.ray entry p.rng
    exact p.segment_withoutVolumes settings w hevent screen isFirst

def commitMedia (media : List Medium) : List WorldCommand :=
  [.setInstances (media.map (.volume "medium")), .commit]

def ofMedia (media : List Medium) : World := run (.withPolicy fun _ _ => none) (commitMedia media)

/-- A medium in an upright block, as wide and high as the unit box, between two depths. -/
def slab (density far near : Float32) : Medium := ⟨⟨⟨-1, -1, far⟩, ⟨1, 1, near⟩⟩, density, .one⟩

theorem tests_dense_medium_before_thin :
    let w := ofMedia [slab 0 (-6) (-4), slab 2 (-3) (-1)]
    let p := Path.start BoxTree.downward (.ofSeed 7)
    p.ray.NowhereInfinite ∧
      w.entries p.ray (p.clearWindow .default w) = [(slab 0 (-6) (-4), 4), (slab 2 (-3) (-1), 1)] ∧
      ∃ medium, p.tested? .default w = some medium ∧ 0.0 < medium.density := by
  intro w p
  have hrun : run (.withPolicy fun _ _ => none)
      (commitMedia [slab 0 (-6) (-4), slab 2 (-3) (-1)]) = w := rfl
  have hray : p.ray.NowhereInfinite := by
    intro axis
    cases axis <;> decide +kernel
  have hentries : w.entries p.ray (p.clearWindow .default w) =
      [(slab 0 (-6) (-4), 4), (slab 2 (-3) (-1), 1)] := by
    decide +kernel
  refine ⟨hray, hentries, ?_⟩
  have hdense : w.Enters p.ray (p.clearWindow .default w) (slab 2 (-3) (-1)) 1 :=
    mem_entries_iff.mp (hentries ▸ List.mem_cons_of_mem _ List.mem_cons_self)
  refine (tests_dense_medium hrun .default p hray).1 _ _ hdense (by decide +kernel) ?_
  intro thin s hthin hnot
  have hmem := mem_entries_iff.mpr hthin
  rw [hentries] at hmem
  rcases List.mem_pair.mp hmem with heq | heq <;> cases heq
  · decide +kernel
  · exact absurd (by decide +kernel) hnot

/-- A medium of positive density is entered on the segment, but its flight is tested in none. -/
def Overlooks (w : World) (settings : Settings) (p : Path) : Prop :=
  (∃ dense t, w.Enters p.ray (p.clearWindow settings w) dense t ∧ 0.0 < dense.density) ∧
    ∀ medium, p.tested? settings w = some medium → ¬ 0.0 < medium.density

theorem Overlooks.of_entries {w : World} {settings : Settings} {p : Path}
    (hentries : (w.entries p.ray (p.clearWindow settings w)).any fun e => 0.0 < e.1.density)
    (htested : (p.tested? settings w).all fun medium => !decide (0.0 < medium.density)) :
    w.Overlooks settings p := by
  obtain ⟨⟨dense, t⟩, hmem, hdense⟩ := List.any_eq_true.mp hentries
  refine ⟨⟨dense, t, mem_entries_iff.mp hmem, of_decide_eq_true hdense⟩, fun medium hmedium => ?_⟩
  rw [hmedium] at htested
  simpa using htested

/-- A medium of positive density is overlooked when one without density lies in front of it, when
one is around it at the start of the ray, and when the ray misses the box around two media because
its direction is infinite. -/
theorem overlooks_dense_medium :
    (ofMedia [slab 0 (-3) (-1), slab 1 (-6) (-4)]).Overlooks .default
        (.start BoxTree.downward (.ofSeed 0)) ∧
      (ofMedia [slab 0 (-2) 2, slab 1 (-1) 1]).Overlooks .default
        (.start BoxTree.downward (.ofSeed 0)) ∧
      (ofMedia [⟨⟨⟨-3e38, -1, -3⟩, ⟨-2e38, 1, -1⟩⟩, 1, .one⟩,
          ⟨⟨⟨2e38, -1, -3⟩, ⟨2.5e38, 1, -1⟩⟩, 1, .one⟩]).Overlooks .default
        (.start ⟨⟨3e38, 0, 0⟩, ⟨infinity, 0, -1⟩⟩ (.ofSeed 0)) :=
  ⟨.of_entries (by decide +kernel) (by decide +kernel),
    .of_entries (by decide +kernel) (by decide +kernel),
    .of_entries (by decide +kernel) (by decide +kernel)⟩

end World

end TileTracer
