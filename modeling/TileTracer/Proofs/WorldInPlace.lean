import TileTracer.Proofs.WorkInPlace
import TileTracer.Proofs.WorldHistory

namespace TileTracer

/-- A world with its committed state in fields of their own, as it is changed in place. -/
structure WorldFields where
  params : Params
  policy : BuildPolicy
  requests : Nat
  instances : List Instance
  geometryCount : Nat
  volumeCount : Nat
  geometry : Option (BoxTree Float32)
  volumes : Option (BoxTree Float32)

/-- Work on a world in place. A failure leaves the fields as they are then. -/
abbrev WorldWork := ExceptT SceneError (StateM WorldFields)

namespace WorldWork

def runOn {β : Type} (work : WorldWork β) (fields : WorldFields) :
    Except SceneError β × WorldFields :=
  work.run.run fields

def requestTree (items : List (Primitive Float32)) : WorldWork (BoxTree Float32) := do
  let fields ← get
  modify fun fields => { fields with requests := fields.requests + 1 }
  match fields.policy fields.requests items with
  | some reason => throw (.build reason)
  | none => match BoxTree.ofList? items with
    | none => throw .unordered
    | some tree => pure tree

/-- Builds both trees and then sets the committed fields one by one. -/
def rebuild (instances : List Instance) : WorldWork Unit := do
  let volumeCount := instances.countP (·.isVolume)
  let geometryCount := instances.length - volumeCount
  let geometry ← requestTree (Scene.primitives Instance.isGeometry instances)
  let volumes ← requestTree (Scene.primitives Instance.isVolume instances)
  modify fun fields => { fields with instances }
  modify fun fields => { fields with geometryCount }
  modify fun fields => { fields with volumeCount }
  modify fun fields => { fields with geometry := some geometry }
  modify fun fields => { fields with volumes := some volumes }

def commit : WorldWork Unit := do
  let fields ← get
  match Params.instances? fields.params WorldOf.instancesKey with
  | .error e => throw e
  | .ok list => match Scene.firstDefect? (list.getD []) with
    | some e => throw e
    | none => rebuild (list.getD [])

def perform : WorldCommand → WorldWork Unit
  | .setParam key value => modify fun fields => { fields with params := fields.params.set key value }
  | .setInstances instances => modify fun fields =>
      { fields with params := fields.params.set WorldOf.instancesKey (.instances instances) }
  | .commit => commit

end WorldWork

def WorldFields.carryOut (start : WorldFields) (commands : List WorldCommand) : WorldFields :=
  commands.foldl (fun fields command => ((WorldWork.perform command).runOn fields).2) start

namespace World

def fields (w : World) : WorldFields where
  params := w.params
  policy := w.policy
  requests := w.requests
  instances := w.instances
  geometryCount := w.geometryCount
  volumeCount := w.volumeCount
  geometry := w.scene.map (·.geometry)
  volumes := w.scene.map (·.volumes)

theorem answers_fields (w : World) (ray : Ray Float32) (window : Window Float32) (index : Nat) :
    (w.isCommitted = (w.fields.geometry.isSome && w.fields.volumes.isSome)) ∧
      w.trace ray window = w.fields.geometry.bind (·.intersect ray window) ∧
      w.traceVolume ray window = w.fields.volumes.bind (·.intersect ray window) ∧
      w.material? index = w.fields.instances[index]?.bind Instance.material? ∧
      w.medium? index = w.fields.instances[index]?.bind Instance.medium? := by
  unfold WorldOf.isCommitted trace traceVolume material? medium? fields WorldOf.instances
  cases w.scene with
  | none => exact ⟨rfl, rfl, rfl, rfl, rfl⟩
  | some scene => exact ⟨rfl, rfl, rfl, rfl, rfl⟩

theorem runOn_requestTree (w : World) (items : List (Primitive Float32)) :
    (WorldWork.requestTree items).runOn w.fields =
      ((w.requestTree items).1, fields (w.requestTree items).2) := by
  have hstart : (WorldWork.requestTree items).runOn w.fields =
      WorldWork.runOn (match w.policy w.requests items with
        | some reason => throw (.build reason)
        | none => match BoxTree.ofList? items with
          | none => throw .unordered
          | some tree => pure tree) { w.fields with requests := w.requests + 1 } := rfl
  rw [hstart, WorldOf.requestTree]
  cases w.policy w.requests items with
  | some reason => rfl
  | none => cases BoxTree.ofList? items <;> rfl

theorem length_sub_countP_isVolume (instances : List Instance) :
    instances.length - instances.countP (·.isVolume) = instances.countP (·.isGeometry) := by
  rw [List.length_eq_countP_add_countP (·.isVolume), Nat.add_sub_cancel_left]
  simp [Instance.isGeometry]

theorem runOn_rebuild (w : World) (instances : List Instance) :
    (WorldWork.rebuild instances).runOn w.fields =
      match w.requestScene instances with
      | (.error e, after) => (.error e, fields after)
      | (.ok scene, after) => (.ok (), fields { after with scene := some scene }) := by
  have hgeometry := w.runOn_requestTree (Scene.primitives Instance.isGeometry instances)
  unfold requestScene
  rcases hfirst : w.requestTree (Scene.primitives Instance.isGeometry instances) with
    ⟨e | geometry, next⟩
  · rw [hfirst] at hgeometry
    exact WorkInPlace.run_bind_of_error hgeometry _
  · rw [hfirst] at hgeometry
    refine (WorkInPlace.run_bind_of_ok hgeometry _).trans ?_
    have hvolumes := runOn_requestTree next (Scene.primitives Instance.isVolume instances)
    dsimp only
    rcases hsecond : next.requestTree (Scene.primitives Instance.isVolume instances) with
      ⟨e | volumes, last⟩
    · rw [hsecond] at hvolumes
      exact WorkInPlace.run_bind_of_error hvolumes _
    · rw [hsecond] at hvolumes
      refine (WorkInPlace.run_bind_of_ok hvolumes _).trans ?_
      change (Except.ok (), ({ fields last with
        instances
        geometryCount := instances.length - instances.countP (·.isVolume)
        volumeCount := instances.countP (·.isVolume)
        geometry := some geometry
        volumes := some volumes } : WorldFields)) = _
      rw [length_sub_countP_isVolume]
      rfl

theorem runOn_commit (w : World) :
    WorldWork.commit.runOn w.fields = (w.commit.1.map fun _ => (), fields w.commit.2) := by
  have hstart : WorldWork.commit.runOn w.fields =
      WorldWork.runOn (match Params.instances? w.params WorldOf.instancesKey with
        | .error e => throw e
        | .ok list => match Scene.firstDefect? (list.getD []) with
          | some e => throw e
          | none => WorldWork.rebuild (list.getD [])) w.fields := rfl
  rw [hstart, commit]
  cases Params.instances? w.params WorldOf.instancesKey with
  | error e => rfl
  | ok list =>
      dsimp only
      cases Scene.firstDefect? (list.getD []) with
      | some e => rfl
      | none =>
          dsimp only
          rw [runOn_rebuild]
          rcases w.requestScene (list.getD []) with ⟨_ | _, _⟩ <;> rfl

/-- A commit in place that fails has changed nothing but the number of trees requested. -/
theorem runOn_commit_of_error (w : World) {e : SceneError}
    (h : (WorldWork.commit.runOn w.fields).1 = .error e) :
    ∃ n, (WorldWork.commit.runOn w.fields).2 = { w.fields with requests := w.requests + n } := by
  rw [runOn_commit] at h ⊢
  rcases w.commit_cases with ⟨_, n, hcommit, _⟩ | ⟨_, _, _, _, hcommit⟩
  · rw [hcommit]
    exact ⟨n, rfl⟩
  · rw [hcommit] at h
    cases h

theorem runOn_perform (w : World) (command : WorldCommand) :
    ((WorldWork.perform command).runOn w.fields).2 = fields (w.step command) := by
  cases command with
  | setParam key value => rfl
  | setInstances instances => rfl
  | commit => exact congrArg Prod.snd w.runOn_commit

theorem carryOut_fields (w : World) (commands : List WorldCommand) :
    w.fields.carryOut commands = fields (w.run commands) := by
  induction commands generalizing w with
  | nil => rfl
  | cons command commands ih =>
      refine (congrArg (WorldFields.carryOut · commands) (w.runOn_perform command)).trans ?_
      exact ih _

/-- In place too, a world never has one tree without the other, and it counts the instances that
they were built from. -/
theorem carryOut_together (w : World) (commands : List WorldCommand) :
    ∃ after, after = w.fields.carryOut commands ∧
      after.geometry.isSome = after.volumes.isSome ∧
      (after.geometry = none → after.instances = []) ∧
      after.geometryCount = after.instances.countP (·.isGeometry) ∧
      after.volumeCount = after.instances.countP (·.isVolume) := by
  refine ⟨_, rfl, ?_⟩
  rw [carryOut_fields]
  unfold fields WorldOf.instances WorldOf.geometryCount WorldOf.volumeCount
  cases (w.run commands).scene with
  | none => exact ⟨rfl, fun _ => rfl, rfl, rfl⟩
  | some scene => exact ⟨rfl, nofun, rfl, rfl⟩

end World

end TileTracer
