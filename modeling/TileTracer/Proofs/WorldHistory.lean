import Mathlib.Data.List.Induction
import TileTracer.Scene.World

namespace TileTracer

namespace Mesh

theorem triangles_isSome {vertex? : Nat → Option (Vec3 Float32)} :
    ∀ {indices : List Nat}, (∀ i ∈ indices, (vertex? i).isSome) →
      (triangles vertex? indices).isSome
  | [], _ => rfl
  | [_], _ => rfl
  | [_, _], _ => rfl
  | i :: j :: k :: rest, h => by
      obtain ⟨a, ha⟩ := Option.isSome_iff_exists.mp (h i (by simp))
      obtain ⟨b, hb⟩ := Option.isSome_iff_exists.mp (h j (by simp))
      obtain ⟨c, hc⟩ := Option.isSome_iff_exists.mp (h k (by simp))
      have hrest : ∀ n ∈ rest, (vertex? n).isSome := fun n hn => h n (by simp [hn])
      obtain ⟨others, hothers⟩ := Option.isSome_iff_exists.mp (triangles_isSome hrest)
      simp [triangles, ha, hb, hc, hothers]

theorem defect?_eq_none_iff {mesh : Mesh} :
    mesh.defect? = none ↔ mesh.indices ≠ [] ∧ mesh.indices.length % 3 = 0 ∧
      (∀ index ∈ mesh.indices, index < mesh.positions.size) ∧
      ∀ p ∈ mesh.positions, p.isFinite = true := by
  unfold defect?
  split
  · next hcount =>
    simp only [reduceCtorEq, false_iff]
    rintro ⟨hne, hthree, -⟩
    simp [hne, hthree] at hcount
  · next hcount =>
    split
    · next index hfind =>
      simp only [reduceCtorEq, false_iff]
      rintro ⟨-, -, hrange, -⟩
      have hindex := List.find?_some hfind
      simp only [decide_eq_true_eq] at hindex
      exact absurd (hrange index (List.mem_of_find?_eq_some hfind)) (Nat.not_lt_of_le hindex)
    · next hfind =>
      simp only [Bool.or_eq_true, List.isEmpty_iff, decide_eq_true_eq, not_or, not_not] at hcount
      simp only [List.find?_eq_none, decide_eq_true_eq, Nat.not_le] at hfind
      simp only [ite_eq_left_iff, reduceCtorEq, imp_false, not_not, Array.all_eq_true']
      exact ⟨fun h => ⟨hcount.1, hcount.2, hfind, h⟩, fun h => h.2.2.2⟩

end Mesh

namespace Instance

theorem defect?_eq_none_iff {i : Instance} :
    i.defect? = none ↔ i.transform.isFinite = true ∧
      ¬ i.transform.determinant.abs < Binary32.epsilon ∧ i.content.defect? = none := by
  unfold defect?
  split
  · simp_all
  · split <;> simp_all

theorem primitives_isSome_of_valid {i : Instance} (hvalid : i.defect? = none) (owner : Nat) :
    (i.primitives owner).isSome := by
  obtain ⟨-, -, hcontent⟩ := defect?_eq_none_iff.mp hvalid
  simp only [primitives, Option.isSome_map]
  cases hi : i.content with
  | volume medium => rfl
  | geometry shape material =>
      cases shape with
      | sphere center radius => rfl
      | mesh mesh =>
          rw [hi] at hcontent
          apply Mesh.triangles_isSome
          intro n hn
          simp [(Mesh.defect?_eq_none_iff.mp hcontent).2.2.1 n hn]

theorem owner_of_mem_primitives {i : Instance} {owner : Nat} {ps : List (Primitive Float32)}
    (hprimitives : i.primitives owner = some ps) : ∀ p ∈ ps, p.owner = owner := by
  obtain ⟨solids, _, rfl⟩ := Option.map_eq_some_iff.mp hprimitives
  intro p hp
  obtain ⟨solid, _, rfl⟩ := List.mem_map.mp hp
  rfl

end Instance

namespace Scene

/-- The primitives are those of the instances to be kept, instance by instance, and each belongs to
the position of its instance. -/
def Flattened (keep : Instance → Bool) (instances : List Instance)
    (ps : List (Primitive Float32)) : Prop :=
  ∃ blocks : List (List (Primitive Float32)), ps = blocks.flatten ∧
    blocks.length = instances.length ∧
    ∀ (n : Nat) (i : Instance) (block : List (Primitive Float32)),
      instances[n]? = some i → blocks[n]? = some block →
        (keep i = true → i.primitives n = some block ∧ ∀ p ∈ block, p.owner = n) ∧
        (keep i = false → block = [])

theorem primitives_flattened {instances : List Instance} (keep : Instance → Bool)
    (hvalid : ∀ i ∈ instances, i.defect? = none) :
    Flattened keep instances (primitives keep instances) := by
  refine ⟨instances.zipIdx.map fun entry =>
    if keep entry.1 then (entry.1.primitives entry.2).getD [] else [], ?_, by simp, ?_⟩
  · rw [primitives, List.flatMap_def]
  · intro n i block hi hblock
    rw [List.getElem?_map, List.getElem?_zipIdx, hi] at hblock
    simp only [Option.map_some, Option.some.injEq, Nat.zero_add] at hblock
    subst hblock
    constructor
    · intro hkeep
      obtain ⟨ps, hps⟩ := Option.isSome_iff_exists.mp
        (Instance.primitives_isSome_of_valid (hvalid i (List.mem_of_getElem? hi)) n)
      rw [if_pos hkeep, hps]
      exact ⟨rfl, Instance.owner_of_mem_primitives hps⟩
    · intro hkeep
      simp [hkeep]

/-- The scene is what a commit derives from a list of valid instances. -/
structure DerivedFrom (scene : Scene) (instances : List Instance) : Prop where
  same : scene.instances = instances
  valid : ∀ i ∈ instances, i.defect? = none
  geometry : ∃ ps, Flattened Instance.isGeometry instances ps ∧
    BoxTree.ofList? ps = some scene.geometry
  volumes : ∃ ps, Flattened Instance.isVolume instances ps ∧
    BoxTree.ofList? ps = some scene.volumes

theorem firstDefect?_eq_none {instances : List Instance} (h : firstDefect? instances = none) :
    ∀ i ∈ instances, i.defect? = none := by
  intro i hi
  obtain ⟨n, hn⟩ := List.mem_iff_getElem?.mp hi
  have hmem : (i, n) ∈ instances.zipIdx := List.mk_mem_zipIdx_iff_getElem?.mpr hn
  have hnone := List.findSome?_eq_none_iff.mp h (i, n) hmem
  simpa using hnone

theorem firstDefect?_eq_some {instances : List Instance} {e : SceneError}
    (h : firstDefect? instances = some e) :
    ∃ (n : Nat) (i : Instance) (defect : Defect), e = .invalidInstance n i.name defect ∧
      instances[n]? = some i ∧ i.defect? = some defect ∧
      ∀ m < n, ∀ j, instances[m]? = some j → j.defect? = none := by
  obtain ⟨before, ⟨i, n⟩, rest, hsplit, hdefect, hbefore⟩ := List.findSome?_eq_some_iff.mp h
  obtain ⟨defect, hi, rfl⟩ := Option.map_eq_some_iff.mp hdefect
  have hmem {j : Instance} {m : Nat} :
      (j, m) ∈ instances.zipIdx ↔ instances[m]? = some j := List.mk_mem_zipIdx_iff_getElem?
  have hn : n = before.length := by
    have hget := congrArg (·[before.length]?) hsplit
    simp only [List.getElem?_zipIdx, List.getElem?_append_right (Nat.le_refl _), Nat.sub_self,
      List.getElem?_cons_zero, Option.map_eq_some_iff] at hget
    obtain ⟨_, _, hget⟩ := hget
    simpa using (Prod.mk.inj hget).2.symm
  refine ⟨n, i, defect, rfl, hmem.mp (by rw [hsplit]; simp), hi, ?_⟩
  intro m hm j hj
  have hget : before[m]? = some (j, m) := by
    have hzip : instances.zipIdx[m]? = some (j, m) := by simp [List.getElem?_zipIdx, hj]
    rw [hsplit, List.getElem?_append_left (hn ▸ hm)] at hzip
    exact hzip
  simpa using hbefore (j, m) (List.mem_of_getElem? hget)

end Scene

inductive WorldCommand where
  | setParam (key : String) (value : Param)
  | setInstances (instances : List Instance)
  | commit

namespace World

def step (w : World) : WorldCommand → World
  | .setParam key value => WorldOf.setParam w key value
  | .setInstances instances => w.setInstances instances
  | .commit => w.commit.2

def run (w : World) (commands : List WorldCommand) : World := commands.foldl step w

/-- A tree over primitives is refused, or cannot be put in order, when `made` trees have been
requested in all. -/
inductive TreeFails (w : World) (made : Nat) (ps : List (Primitive Float32)) : SceneError → Prop
  | refused {reason : String} : w.policy made ps = some reason → TreeFails w made ps (.build reason)
  | unordered : w.policy made ps = none → BoxTree.ofList? ps = none → TreeFails w made ps .unordered

/-- The ways in which a commit fails, with the number of trees that it requests first. -/
inductive CommitFails (w : World) : SceneError → Nat → Prop
  | wrongType {value : Param} :
      w.params.get? WorldOf.instancesKey = some value → (∀ list, value ≠ .instances list) →
      CommitFails w (.paramType WorldOf.instancesKey .instances value.kind) 0
  | invalid {list : Option (List Instance)} {n : Nat} {i : Instance} {defect : Defect} :
      Params.instances? w.params WorldOf.instancesKey = .ok list →
      (list.getD [])[n]? = some i → i.defect? = some defect →
      (∀ m < n, ∀ j, (list.getD [])[m]? = some j → j.defect? = none) →
      CommitFails w (.invalidInstance n i.name defect) 0
  | geometry {list : Option (List Instance)} {ps : List (Primitive Float32)} {e : SceneError} :
      Params.instances? w.params WorldOf.instancesKey = .ok list →
      (∀ i ∈ list.getD [], i.defect? = none) →
      Scene.Flattened Instance.isGeometry (list.getD []) ps → TreeFails w w.requests ps e →
      CommitFails w e 1
  | volumes {list : Option (List Instance)} {ps : List (Primitive Float32)} {e : SceneError} :
      Params.instances? w.params WorldOf.instancesKey = .ok list →
      (∀ i ∈ list.getD [], i.defect? = none) →
      Scene.Flattened Instance.isVolume (list.getD []) ps → TreeFails w (w.requests + 1) ps e →
      CommitFails w e 2

theorem requestTree_cases (w : World) (ps : List (Primitive Float32)) :
    (∃ e, w.requestTree ps = (.error e, { w with requests := w.requests + 1 }) ∧
      TreeFails w w.requests ps e) ∨
    ∃ tree, w.requestTree ps = (.ok tree, { w with requests := w.requests + 1 }) ∧
      BoxTree.ofList? ps = some tree := by
  unfold WorldOf.requestTree
  cases hpolicy : w.policy w.requests ps with
  | some reason => exact .inl ⟨_, rfl, .refused hpolicy⟩
  | none =>
      cases htree : BoxTree.ofList? ps with
      | none => exact .inl ⟨_, rfl, .unordered hpolicy htree⟩
      | some tree => exact .inr ⟨tree, rfl, rfl⟩

theorem instances?_eq_error {params : Params} {key : String} {e : SceneError}
    (h : params.instances? key = .error e) :
    ∃ value, params.get? key = some value ∧ (∀ list, value ≠ .instances list) ∧
      e = .paramType key .instances value.kind := by
  unfold Params.instances? Params.read? at h
  cases hvalue : params.get? key with
  | none => simp [hvalue] at h
  | some value =>
      refine ⟨value, rfl, ?_, ?_⟩
      · rintro list rfl
        simp [hvalue] at h
      · cases value <;> simp_all

/-- A commit either fails, and then only the number of requests changes, or leaves the scene that it
has derived from the instance list. -/
theorem commit_cases (w : World) :
    (∃ e n, w.commit = (.error e, { w with requests := w.requests + n }) ∧ CommitFails w e n) ∨
    ∃ list scene, Params.instances? w.params WorldOf.instancesKey = .ok list ∧
      scene.DerivedFrom (list.getD []) ∧
      w.commit = (.ok scene, { w with requests := w.requests + 2, scene := some scene }) := by
  unfold commit
  -- The stages fail in this order: up to the check without a request, then behind one or two of them.
  cases hlist : Params.instances? w.params WorldOf.instancesKey with
  | error e =>
      obtain ⟨value, hvalue, hkind, rfl⟩ := instances?_eq_error hlist
      exact .inl ⟨_, 0, rfl, .wrongType hvalue hkind⟩
  | ok list =>
      dsimp only
      cases hdefect : Scene.firstDefect? (list.getD []) with
      | some e =>
          obtain ⟨n, i, defect, rfl, hi, hd, hleast⟩ := Scene.firstDefect?_eq_some hdefect
          exact .inl ⟨_, 0, rfl, .invalid hlist hi hd hleast⟩
      | none =>
          have hvalid := Scene.firstDefect?_eq_none hdefect
          have hgeometry := Scene.primitives_flattened Instance.isGeometry hvalid
          have hvolumes := Scene.primitives_flattened Instance.isVolume hvalid
          unfold requestScene
          rcases w.requestTree_cases (Scene.primitives Instance.isGeometry (list.getD [])) with
            ⟨e, hrequest, hfails⟩ | ⟨geometry, hrequest, htree⟩
          · rw [hrequest]
            exact .inl ⟨e, 1, rfl, .geometry hlist hvalid hgeometry hfails⟩
          · rw [hrequest]
            dsimp only
            rcases requestTree_cases { w with requests := w.requests + 1 }
              (Scene.primitives Instance.isVolume (list.getD [])) with
              ⟨e, hrequest₂, hfails⟩ | ⟨volumes, hrequest₂, htree₂⟩
            · rw [hrequest₂]
              refine .inl ⟨e, 2, rfl, .volumes hlist hvalid hvolumes ?_⟩
              cases hfails with
              | refused h => exact .refused h
              | unordered h h' => exact .unordered h h'
            · rw [hrequest₂]
              exact .inr ⟨list, _, rfl, ⟨rfl, hvalid, ⟨_, hgeometry, htree⟩,
                ⟨_, hvolumes, htree₂⟩⟩, rfl⟩

def NoSuccess (w : World) (commands : List WorldCommand) : Prop :=
  ∀ before after, commands = before ++ .commit :: after →
    ∃ e, (w.run before).commit.1 = .error e

structure Blank (w : World) : Prop where
  uncommitted : w.scene = none
  instances : w.instances = []
  geometryCount : w.geometryCount = 0
  volumeCount : w.volumeCount = 0

structure Holds (w : World) (list : List Instance) (scene : Scene) : Prop where
  committed : w.scene = some scene
  derived : scene.DerivedFrom list
  instances : w.instances = list
  geometryCount : w.geometryCount = list.countP Instance.isGeometry
  volumeCount : w.volumeCount = list.countP Instance.isVolume
  total : w.geometryCount + w.volumeCount = list.length

theorem Blank.of_scene {w : World} (hscene : w.scene = none) : Blank w := by
  constructor <;> simp [WorldOf.instances, WorldOf.geometryCount, WorldOf.volumeCount, hscene]

theorem Holds.of_scene {w : World} {list : List Instance} {scene : Scene}
    (hscene : w.scene = some scene) (hderived : scene.DerivedFrom list) : Holds w list scene := by
  have hsame := hderived.same
  have hgeometry : w.geometryCount = list.countP Instance.isGeometry := by
    simp [WorldOf.geometryCount, hscene, Scene.geometryCount, hsame]
  have hvolume : w.volumeCount = list.countP Instance.isVolume := by
    simp [WorldOf.volumeCount, hscene, Scene.volumeCount, hsame]
  refine ⟨hscene, hderived, by simp [WorldOf.instances, hscene, hsame], hgeometry, hvolume, ?_⟩
  rw [hgeometry, hvolume, Nat.add_comm]
  have hnot : Instance.isGeometry = fun inst => !inst.isVolume := rfl
  rw [hnot]
  simpa using (List.length_eq_countP_add_countP Instance.isVolume (l := list)).symm

theorem run_concat (w : World) (commands : List WorldCommand) (command : WorldCommand) :
    w.run (commands ++ [command]) = (w.run commands).step command := by
  simp [run]

/-- After the commands, the world is as the last successful commit among them has left it. -/
def Reflects (start : World) (commands : List WorldCommand) : Prop :=
  (start.NoSuccess commands ∧ (start.run commands).Blank) ∨
  ∃ before after list scene, commands = before ++ .commit :: after ∧
    (start.run before).commit.1 = .ok scene ∧
    (start.run (before ++ [.commit])).NoSuccess after ∧
    Params.instances? (start.run before).params WorldOf.instancesKey = .ok list ∧
    (start.run commands).Holds (list.getD []) scene

theorem NoSuccess.concat {w : World} {commands : List WorldCommand} {command : WorldCommand}
    (h : w.NoSuccess commands)
    (hlast : command = .commit → ∃ e, (w.run commands).commit.1 = .error e) :
    w.NoSuccess (commands ++ [command]) := by
  intro before after hsplit
  rcases List.eq_nil_or_concat after with rfl | ⟨after, last, rfl⟩
  · obtain ⟨rfl, hcommand⟩ := List.append_inj' hsplit rfl
    exact hlast (List.singleton_inj.mp hcommand)
  · rw [List.concat_eq_append, ← List.cons_append, ← List.append_assoc] at hsplit
    exact h before after (List.append_inj' hsplit rfl).1

theorem Reflects.concat_of_scene_eq {start : World} {commands : List WorldCommand}
    {command : WorldCommand} (h : start.Reflects commands)
    (hscene : ((start.run commands).step command).scene = (start.run commands).scene)
    (hlast : command = .commit → ∃ e, (start.run commands).commit.1 = .error e) :
    start.Reflects (commands ++ [command]) := by
  rcases h with ⟨hnone, hblank⟩ | ⟨before, after, list, scene, rfl, hok, hnone, hlist, hholds⟩
  · refine .inl ⟨hnone.concat hlast, ?_⟩
    rw [run_concat]
    exact .of_scene (hscene.trans hblank.uncommitted)
  · refine .inr ⟨before, after ++ [command], list, scene, by simp, hok, ?_, hlist, ?_⟩
    · apply hnone.concat
      simpa [run] using hlast
    · rw [run_concat]
      exact .of_scene (hscene.trans hholds.committed) hholds.derived

theorem reflects_of_blank {start : World} (hstart : start.scene = none)
    (commands : List WorldCommand) : start.Reflects commands := by
  induction commands using List.reverseRecOn with
  | nil =>
      refine .inl ⟨?_, .of_scene hstart⟩
      intro before after hsplit
      simp at hsplit
  | append_singleton commands command ih =>
      cases command with
      | setParam key value => exact ih.concat_of_scene_eq rfl (by simp)
      | setInstances list => exact ih.concat_of_scene_eq rfl (by simp)
      | commit =>
          rcases (start.run commands).commit_cases with
            ⟨e, n, hcommit, _⟩ | ⟨list, scene, hlist, hderived, hcommit⟩
          · refine ih.concat_of_scene_eq ?_ fun _ => ⟨e, by rw [hcommit]⟩
            rw [step, hcommit]
          · refine .inr ⟨commands, [], list, scene, rfl, by rw [hcommit], ?_, hlist, ?_⟩
            · intro before after hsplit
              simp at hsplit
            · rw [run_concat, step, hcommit]
              exact .of_scene rfl hderived

/-- Whatever is done to a fresh world, under whatever policy its trees are built: its committed
state is blank, or that of the last successful commit. A commit that fails does so for a stated
reason and changes nothing but the number of trees requested. -/
theorem run_withPolicy_atomic (policy : BuildPolicy) (commands : List WorldCommand) :
    Reflects (.withPolicy policy) commands ∧
      ∀ e, (run (.withPolicy policy) commands).commit.1 = .error e →
        ∃ n, CommitFails (run (.withPolicy policy) commands) e n ∧
          (run (.withPolicy policy) commands).commit.2 =
            { run (.withPolicy policy) commands with
              requests := (run (.withPolicy policy) commands).requests + n } := by
  refine ⟨reflects_of_blank rfl commands, ?_⟩
  intro e he
  rcases commit_cases (run (.withPolicy policy) commands) with
    ⟨e', n, hcommit, hfails⟩ | ⟨list, scene, _, _, hcommit⟩
  · rw [hcommit] at he ⊢
    cases he
    exact ⟨n, hfails, rfl⟩
  · rw [hcommit] at he
    cases he

theorem run_withPolicy_atomic_volumes_refused :
    ∃ (policy : BuildPolicy) (fog : Instance) (w : World),
      w = run (.withPolicy policy) [.commit, .setInstances [fog], .setParam "seed" (.int 7)] ∧
      w.commit.1 = .error (.build "no room") ∧ w.scene.isSome ∧
      ∃ n, CommitFails w (.build "no room") n ∧
        w.commit.2 = { w with requests := w.requests + n } := by
  let policy : BuildPolicy := fun _ ps => if ps.isEmpty then none else some "no room"
  let fog : Instance := .volume "fog" ⟨⟨⟨0, 0, 0⟩, ⟨1, 2, 3⟩⟩, 1, ⟨1, 1, 1⟩⟩
  let w := run (.withPolicy policy) [.commit, .setInstances [fog], .setParam "seed" (.int 7)]
  have hrefused : w.commit.1 = .error (.build "no room") := by
    have hlist : Params.instances? w.params WorldOf.instancesKey = .ok (some [fog]) := rfl
    have hvalid : Scene.firstDefect? [fog] = none := by decide +kernel
    have hgeometry : Scene.primitives Instance.isGeometry [fog] = [] := rfl
    have hvolumes : Scene.primitives Instance.isVolume [fog] ≠ [] := List.cons_ne_nil _ _
    have hpolicy : w.policy = policy := rfl
    have hempty : BoxTree.ofList? ([] : List (Primitive Float32)) = some .empty := rfl
    simp [commit, hlist, hvalid, requestScene, WorldOf.requestTree, hgeometry, hpolicy, policy,
      hvolumes, hempty]
  exact ⟨policy, fog, w, rfl, hrefused, rfl, (run_withPolicy_atomic policy _).2 _ hrefused⟩

end World

end TileTracer
