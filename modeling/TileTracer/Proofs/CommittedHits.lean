import TileTracer.Proofs.WindowedHits
import TileTracer.Proofs.WorldHistory
import TileTracer.Render.Path

namespace TileTracer

open Scalar OrderedScalar
open TileTracer.Random (Stream)

theorem Mesh.solids_are_surfaces {vertex? : Nat → Option (Vec3 Float32)} {indices : List Nat}
    {solids : List (Solid Float32)} (h : triangles vertex? indices = some solids) :
    ∀ solid ∈ solids, ∀ box, solid ≠ .volume box := by
  fun_induction triangles vertex? indices generalizing solids
  case case1 i j k rest ih =>
    obtain ⟨a, _, h⟩ := Option.bind_eq_some_iff.mp h
    obtain ⟨b, _, h⟩ := Option.bind_eq_some_iff.mp h
    obtain ⟨c, _, h⟩ := Option.bind_eq_some_iff.mp h
    obtain ⟨others, hothers, h⟩ := Option.bind_eq_some_iff.mp h
    cases h
    exact List.forall_mem_cons.mpr ⟨fun box => (nomatch ·), ih hothers⟩
  case case2 =>
    cases h
    exact fun solid hsolid => absurd hsolid List.not_mem_nil

theorem Instance.isVolume_iff_of_mem_primitives {i : Instance} {owner : Nat}
    {ps : List (Primitive Float32)} (hprimitives : i.primitives owner = some ps)
    {p : Primitive Float32} (hp : p ∈ ps) : p.IsVolume ↔ i.isVolume = true := by
  obtain ⟨solids, hsolids, rfl⟩ := Option.map_eq_some_iff.mp hprimitives
  obtain ⟨solid, hsolid, rfl⟩ := List.mem_map.mp hp
  rcases i with ⟨name, transform, content⟩
  cases content with
  | volume medium =>
      cases hsolids
      cases List.mem_singleton.mp hsolid
      exact iff_of_true ⟨_, rfl⟩ rfl
  | geometry shape material =>
      refine iff_of_false ?_ Bool.false_ne_true
      rintro ⟨box, hbox⟩
      cases shape with
      | sphere center radius =>
          cases hsolids
          cases List.mem_singleton.mp hsolid
          cases hbox
      | mesh mesh => exact Mesh.solids_are_surfaces hsolids solid hsolid box hbox

namespace Scene

variable {instances : List Instance} {scene : Scene} {ray : Ray Float32} {w : Window Float32}
  {h : Hit Float32}

theorem Flattened.mem_iff {keep : Instance → Bool} {ps : List (Primitive Float32)}
    (hflat : Flattened keep instances ps) {p : Primitive Float32} :
    p ∈ ps ↔ ∃ i, instances[p.owner]? = some i ∧ keep i = true ∧
      ∃ block, i.primitives p.owner = some block ∧ p ∈ block := by
  obtain ⟨blocks, rfl, hlength, hblocks⟩ := hflat
  constructor
  · intro hp
    obtain ⟨block, hblock, hp⟩ := List.mem_flatten.mp hp
    obtain ⟨n, hn, rfl⟩ := List.getElem_of_mem hblock
    have hi := List.getElem?_eq_getElem (l := instances) (hlength ▸ hn)
    obtain ⟨hkept, hdropped⟩ := hblocks n _ _ hi (List.getElem?_eq_getElem hn)
    cases hkeep : keep (instances[n]) with
    | true =>
        obtain ⟨hprimitives, howner⟩ := hkept hkeep
        rw [howner p hp]
        exact ⟨_, hi, hkeep, _, hprimitives, hp⟩
    | false =>
        rw [hdropped hkeep] at hp
        cases hp
  · rintro ⟨i, hi, hkeep, block, hprimitives, hp⟩
    obtain ⟨hn, _⟩ := List.getElem?_eq_some_iff.mp hi
    have hblock := List.getElem?_eq_getElem (l := blocks) (hlength.symm ▸ hn)
    have hsame := ((hblocks _ _ _ hi hblock).1 hkeep).1
    cases hprimitives.symm.trans hsame
    exact List.mem_flatten.mpr ⟨_, List.mem_of_getElem? hblock, hp⟩

theorem Flattened.of_mem {keep : Instance → Bool} {ps : List (Primitive Float32)}
    (hflat : Flattened keep instances ps) {p : Primitive Float32} (hp : p ∈ ps) :
    ∃ i, instances[p.owner]? = some i ∧ keep i = true ∧ (p.IsVolume ↔ i.isVolume = true) := by
  obtain ⟨i, hi, hkeep, block, hprimitives, hp⟩ := hflat.mem_iff.mp hp
  exact ⟨i, hi, hkeep, Instance.isVolume_iff_of_mem_primitives hprimitives hp⟩

theorem Flattened.exists_instance {keep : Instance → Bool} {ps : List (Primitive Float32)}
    (hflat : Flattened keep instances ps) {tree : BoxTree Float32}
    (htree : BoxTree.ofList? ps = some tree) (hhit : tree.intersect ray w = some h) :
    ∃ i, instances[h.owner]? = some i ∧ keep i = true := by
  obtain ⟨p, hp, howner⟩ := BoxTree.exists_owner_of_intersect hhit
  obtain ⟨i, hi, hkeep, _⟩ := hflat.of_mem ((BoxTree.perm_of_ofList? htree).mem_iff.mp hp)
  exact ⟨i, howner ▸ hi, hkeep⟩

theorem DerivedFrom.trace_met (hscene : scene.DerivedFrom instances) (hw : w.upper ≤ w.upper)
    (hhit : scene.trace ray w = some h) :
    (∃ i, instances[h.owner]? = some i ∧ i.isGeometry = true) ∧ h.MetIn w := by
  obtain ⟨ps, hflat, htree⟩ := hscene.geometry
  refine ⟨hflat.exists_instance htree hhit, BoxTree.metIn_of_intersect ?_ hw hhit⟩
  intro p hp hvolume
  obtain ⟨i, _, hkeep, hiff⟩ := hflat.of_mem ((BoxTree.perm_of_ofList? htree).mem_iff.mp hp)
  rw [Instance.isGeometry, hiff.mp hvolume] at hkeep
  cases hkeep

theorem DerivedFrom.volumes_are_volumes (hscene : scene.DerivedFrom instances) :
    ∀ p ∈ scene.volumes.items, p.IsVolume := by
  obtain ⟨ps, hflat, htree⟩ := hscene.volumes
  intro p hp
  obtain ⟨i, _, hkeep, hiff⟩ := hflat.of_mem ((BoxTree.perm_of_ofList? htree).mem_iff.mp hp)
  exact hiff.mpr hkeep

theorem DerivedFrom.traceVolume_instance (hscene : scene.DerivedFrom instances)
    (hhit : scene.traceVolume ray w = some h) :
    ∃ i, instances[h.owner]? = some i ∧ i.isVolume = true := by
  obtain ⟨ps, hflat, htree⟩ := hscene.volumes
  exact hflat.exists_instance htree hhit

theorem DerivedFrom.medium?_isSome (hscene : scene.DerivedFrom instances)
    (hhit : scene.traceVolume ray w = some h) : (scene.medium? h.owner).isSome := by
  obtain ⟨⟨name, transform, content⟩, hi, hvolume⟩ := hscene.traceVolume_instance hhit
  rw [medium?, hscene.same, hi]
  cases content with
  | volume medium => rfl
  | geometry shape material => cases hvolume

end Scene

namespace Path

/-- As `mediumEvent`, but `none` if a volume is entered that has no medium, or the path would
scatter in one no nearer than the surface. -/
def mediumEvent? (world : World) (ray : Ray Float32) (w : Window Float32) (near : Float32)
    (rng : Stream) : Option (Option (Float32 × Medium) × Stream) :=
  match world.traceVolume ray w with
  | none => some (none, rng)
  | some entry => match world.medium? entry.owner with
    | none => none
    | some medium =>
      let (u, rng) := rng.unit
      let t := freeFlight ray entry medium.density u
      if 0.0 < medium.density && t < entry.tExit then
        if t < near then some (some (t, medium), rng) else none
      else some (none, rng)

/-- As `segment`, but `none` if the medium on it fails the checks of `mediumEvent?`. -/
def segment? (settings : Settings) (world : World) (screen : Vec2 Float32) (isFirst : Bool)
    (p : Path) : Option Segment :=
  let w := Window.startingAt settings.epsilon
  let near := ((world.trace p.ray w).map (·.t)).getD Scalar.infinity
  (mediumEvent? world p.ray (w.upTo near) near p.rng).map fun _ =>
    p.segment settings world screen isFirst

def follow? (settings : Settings) (world : World) (screen : Vec2 Float32) :
    Nat → Bool → Path → Option Path
  | 0, _, p => some p
  | n + 1, isFirst, p => match p.segment? settings world screen isFirst with
    | none => none
    | some (.ended p) => some p
    | some (.onward p) => follow? settings world screen n false p

def trace? (settings : Settings) (world : World) (screen : Vec2 Float32) (ray : Ray Float32)
    (rng : Stream) : Option Path :=
  follow? settings world screen settings.maxDepth.toNat true (start ray rng)

theorem mediumEvent?_eq {world : World} {ray : Ray Float32} {w : Window Float32} {near : Float32}
    (hentry : ∀ entry, world.traceVolume ray w = some entry →
      (world.medium? entry.owner).isSome ∧ entry.tExit ≤ near) (rng : Stream) :
    mediumEvent? world ray w near rng = some (mediumEvent world ray w rng) := by
  unfold mediumEvent? mediumEvent
  cases hhit : world.traceVolume ray w with
  | none => rfl
  | some entry =>
      obtain ⟨hmedium, hexit⟩ := hentry entry hhit
      obtain ⟨medium, hmedium⟩ := Option.isSome_iff_exists.mp hmedium
      dsimp only
      rw [hmedium]
      dsimp only
      split
      · next haccepted =>
        have hlt : freeFlight ray entry medium.density rng.unit.1 < entry.tExit :=
          of_decide_eq_true (Bool.and_eq_true_iff.mp haccepted).2
        rw [if_pos (lt_of_lt_of_le hlt hexit)]
      · rfl

end Path

theorem infinity_le_self : (infinity : Float32) ≤ infinity := by
  decide

namespace World

variable {policy : BuildPolicy} {commands : List WorldCommand} {w : World}

theorem derived_of_run (hrun : run (.withPolicy policy) commands = w) {scene : Scene}
    (hscene : w.scene = some scene) : scene.DerivedFrom w.instances := by
  have hfresh : (WorldOf.withPolicy policy : World).scene = none := rfl
  rcases reflects_of_blank hfresh commands with ⟨_, hblank⟩ | ⟨_, _, _, _, _, _, _, _, hholds⟩
  · rw [hrun] at hblank
    cases hscene.symm.trans hblank.uncommitted
  · rw [hrun] at hholds
    cases hscene.symm.trans hholds.committed
    rw [hholds.instances]
    exact hholds.derived

variable {ray : Ray Float32} {window : Window Float32} {h : Hit Float32}

theorem trace_met (hrun : run (.withPolicy policy) commands = w)
    (hhit : w.trace ray window = some h) (hwindow : window.upper ≤ window.upper) :
    (∃ i, w.instances[h.owner]? = some i ∧ i.isGeometry = true) ∧ h.MetIn window := by
  obtain ⟨scene, hscene, hhit⟩ := Option.bind_eq_some_iff.mp hhit
  exact (derived_of_run hrun hscene).trace_met hwindow hhit

theorem traceVolume_instance (hrun : run (.withPolicy policy) commands = w)
    (hhit : w.traceVolume ray window = some h) :
    (∃ i, w.instances[h.owner]? = some i ∧ i.isVolume = true) ∧ (w.medium? h.owner).isSome := by
  obtain ⟨scene, hscene, hhit⟩ := Option.bind_eq_some_iff.mp hhit
  have hderived := derived_of_run hrun hscene
  rw [medium?, hscene]
  exact ⟨hderived.traceVolume_instance hhit, hderived.medium?_isSome hhit⟩

theorem traceVolume_crossed (hrun : run (.withPolicy policy) commands = w)
    (hhit : w.traceVolume ray window = some h) (hwindow : window.Bounded) :
    h.CrossedIn window := by
  obtain ⟨scene, hscene, hhit⟩ := Option.bind_eq_some_iff.mp hhit
  exact BoxTree.crossedIn_of_intersect (derived_of_run hrun hscene).volumes_are_volumes hwindow hhit

theorem traceVolume_tExit_le (hrun : run (.withPolicy policy) commands = w)
    (hhit : w.traceVolume ray window = some h) (hwindow : window.upper ≤ window.upper) :
    h.tExit ≤ window.upper := by
  obtain ⟨scene, hscene, hhit⟩ := Option.bind_eq_some_iff.mp hhit
  exact BoxTree.tExit_le_of_intersect (derived_of_run hrun hscene).volumes_are_volumes hwindow hhit

theorem segment?_eq (hrun : run (.withPolicy policy) commands = w) (settings : Settings)
    (screen : Vec2 Float32) (isFirst : Bool) (p : Path) :
    p.segment? settings w screen isFirst = some (p.segment settings w screen isFirst) := by
  -- The near end of the window need not be a number, since any settings are allowed.
  let window := Window.startingAt settings.epsilon
  have hwindow : window.upper ≤ window.upper := infinity_le_self
  have hnear : ((w.trace p.ray window).map (·.t)).getD infinity ≤
      ((w.trace p.ray window).map (·.t)).getD infinity := by
    cases hhit : w.trace p.ray window with
    | none => exact infinity_le_self
    | some hit => exact (le_self_of_lt (trace_met hrun hhit hwindow).2.upper).1
  unfold Path.segment?
  dsimp only
  rw [Path.mediumEvent?_eq]
  · rfl
  · intro entry hentry
    have hexit := traceVolume_tExit_le hrun hentry (lesser_le_self hwindow)
    exact ⟨(traceVolume_instance hrun hentry).2, le_trans hexit (lesser_le_right hnear)⟩

theorem follow?_eq (hrun : run (.withPolicy policy) commands = w) (settings : Settings)
    (screen : Vec2 Float32) (n : Nat) (isFirst : Bool) (p : Path) :
    p.follow? settings w screen n isFirst = some (p.follow settings w screen n isFirst) := by
  induction n generalizing isFirst p with
  | zero => rfl
  | succ n ih =>
      rw [Path.follow?, Path.follow, segment?_eq hrun]
      cases p.segment settings w screen isFirst with
      | ended p => rfl
      | onward p => exact ih false p

/-- In a world that any commands have led to, under any policy: a surface is met strictly inside the
window and belongs to a geometry instance, a volume is crossed inside the window and belongs to an
instance with a medium, and no segment of any path fails the checks of `Path.mediumEvent?`. -/
theorem run_hits_within (hrun : run (.withPolicy policy) commands = w) :
    (∀ ray window, window.Bounded →
      (∀ h, w.trace ray window = some h →
        (∃ i, w.instances[h.owner]? = some i ∧ i.isGeometry = true) ∧ h.MetIn window) ∧
      ∀ h, w.traceVolume ray window = some h →
        (∃ i, w.instances[h.owner]? = some i ∧ i.isVolume = true) ∧
          (w.medium? h.owner).isSome ∧ h.CrossedIn window) ∧
      ∀ settings screen ray rng,
        Path.trace? settings w screen ray rng = some (Path.trace settings w screen ray rng) := by
  constructor
  · intro ray window hwindow
    constructor
    · intro h hhit
      exact trace_met hrun hhit hwindow.upper
    · intro h hhit
      obtain ⟨hinstance, hmedium⟩ := traceVolume_instance hrun hhit
      exact ⟨hinstance, hmedium, traceVolume_crossed hrun hhit hwindow⟩
  · intro settings screen ray rng
    exact follow?_eq hrun settings screen settings.maxDepth.toNat true (.start ray rng)

def foggedBall : List WorldCommand :=
  [.setInstances [.volume "fog" ⟨⟨⟨-1, -1, -3⟩, ⟨1, 1, -1⟩⟩, 1, ⟨1, 1, 1⟩⟩,
    .geometry "ball" (.sphere ⟨0, 0, -5⟩ 0.5)], .commit]

theorem run_hits_within_fogged_ball :
    ∃ w surface entry, run (.withPolicy fun _ _ => none) foggedBall = w ∧
      w.trace BoxTree.downward (.startingAt 1e-3) = some surface ∧
      (surface.owner, surface.t) = (1, 4.5) ∧ surface.MetIn (.startingAt 1e-3) ∧
      w.traceVolume BoxTree.downward (.startingAt 1e-3) = some entry ∧
      (entry.owner, entry.t, entry.tExit) = (0, 1, 3) ∧ (w.medium? 0).isSome ∧
      entry.CrossedIn (.startingAt 1e-3) := by
  let w := run (.withPolicy fun _ _ => none) foggedBall
  have htraces : (w.trace BoxTree.downward (.startingAt 1e-3)).map
        (fun h => (h.owner, h.t)) = some (1, 4.5) ∧
      (w.traceVolume BoxTree.downward (.startingAt 1e-3)).map
        (fun h => (h.owner, h.t, h.tExit)) = some (0, 1, 3) := by
    decide +kernel
  obtain ⟨surface, hsurface, hmet⟩ := Option.map_eq_some_iff.mp htraces.1
  obtain ⟨entry, hentry, hcrossed⟩ := Option.map_eq_some_iff.mp htraces.2
  have hwindow : (Window.startingAt (1e-3 : Float32)).Bounded :=
    ⟨by decide +kernel, by decide +kernel⟩
  have hw : run (.withPolicy fun _ _ => none) foggedBall = w := rfl
  obtain ⟨hsurfaces, hvolumes⟩ := (run_hits_within hw).1 BoxTree.downward _ hwindow
  obtain ⟨_, hmedium, hwithin⟩ := hvolumes entry hentry
  rw [show entry.owner = 0 from congrArg Prod.fst hcrossed] at hmedium
  exact ⟨w, surface, entry, hw, hsurface, hmet, (hsurfaces surface hsurface).2, hentry, hcrossed,
    hmedium, hwithin⟩

end World

end TileTracer
