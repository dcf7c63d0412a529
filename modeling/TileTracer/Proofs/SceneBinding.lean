import TileTracer.Render.Renderer

namespace TileTracer

namespace Params

/-- `key` is the first of some keys that is set, and this is its value. -/
def FirstSet (params : Params) (keys : List String) (key : String) (value : Param) : Prop :=
  ∃ absent rest, keys = absent ++ key :: rest ∧ (∀ k ∈ absent, params.get? k = none) ∧
    params.get? key = some value

variable {params other : Params} {keys : List String} {key k : String} {value : Param}

theorem firstSet_nil : ¬FirstSet params [] key value := by
  rintro ⟨absent, rest, hsplit, _⟩
  simp at hsplit

theorem firstSet_cons_of_some {found : Param} (hk : params.get? k = some found) :
    FirstSet params (k :: keys) key value ↔ key = k ∧ value = found := by
  constructor
  · rintro ⟨_ | ⟨a, absent⟩, rest, hsplit, habsent, hkey⟩
    · obtain ⟨rfl, rfl⟩ := List.cons_eq_cons.mp hsplit
      exact ⟨rfl, Option.some.inj (hkey.symm.trans hk)⟩
    · obtain ⟨rfl, rfl⟩ := List.cons_eq_cons.mp hsplit
      rw [habsent k List.mem_cons_self] at hk
      cases hk
  · rintro ⟨rfl, rfl⟩
    exact ⟨[], keys, rfl, nofun, hk⟩

theorem firstSet_cons_of_none (hk : params.get? k = none) :
    FirstSet params (k :: keys) key value ↔ FirstSet params keys key value := by
  constructor
  · rintro ⟨_ | ⟨a, absent⟩, rest, hsplit, habsent, hkey⟩
    · obtain ⟨rfl, rfl⟩ := List.cons_eq_cons.mp hsplit
      rw [hk] at hkey
      cases hkey
    · obtain ⟨rfl, rfl⟩ := List.cons_eq_cons.mp hsplit
      exact ⟨absent, rest, rfl, fun b hb => habsent b (List.mem_cons_of_mem _ hb), hkey⟩
  · rintro ⟨absent, rest, rfl, habsent, hkey⟩
    exact ⟨k :: absent, rest, rfl, List.forall_mem_cons.mpr ⟨hk, habsent⟩, hkey⟩

theorem findWorld_cons_of_none (hk : params.get? k = none) :
    params.findWorld (k :: keys) = params.findWorld keys := by
  rw [findWorld, world?, read?, hk]
  rfl

theorem findWorld_cons_of_world {world : World} (hk : params.get? k = some (.world world)) :
    params.findWorld (k :: keys) = .ok (some world) := by
  rw [findWorld, world?, read?, hk]
  rfl

theorem findWorld_cons_of_other (hk : params.get? k = some value) (hkind : value.kind ≠ .world) :
    params.findWorld (k :: keys) = .error (.paramType k .world value.kind) := by
  rw [findWorld, world?, read?, hk]
  cases value <;> first | rfl | exact absurd rfl hkind

theorem camera?_of_other (hk : params.get? k = some value) (hkind : value.kind ≠ .camera) :
    params.camera? k = .error (.paramType k .camera value.kind) := by
  rw [camera?, read?, hk]
  cases value <;> first | rfl | exact absurd rfl hkind

inductive Finds (params : Params) (keys : List String) : Except SceneError (Option World) → Prop
  | nothing : (∀ key ∈ keys, params.get? key = none) → Finds params keys (.ok none)
  | world {key : String} {world : World} : FirstSet params keys key (.world world) →
    Finds params keys (.ok (some world))
  | other {key : String} {value : Param} : FirstSet params keys key value → value.kind ≠ .world →
    Finds params keys (.error (.paramType key .world value.kind))

theorem finds_cons_of_none (hk : params.get? k = none) {found : Except SceneError (Option World)} :
    Finds params (k :: keys) found ↔ Finds params keys found := by
  constructor
  · rintro (hnone | hfirst | ⟨hfirst, hkind⟩)
    · exact .nothing (List.forall_mem_cons.mp hnone).2
    · exact .world ((firstSet_cons_of_none hk).mp hfirst)
    · exact .other ((firstSet_cons_of_none hk).mp hfirst) hkind
  · rintro (hnone | hfirst | ⟨hfirst, hkind⟩)
    · exact .nothing (List.forall_mem_cons.mpr ⟨hk, hnone⟩)
    · exact .world ((firstSet_cons_of_none hk).mpr hfirst)
    · exact .other ((firstSet_cons_of_none hk).mpr hfirst) hkind

theorem finds_cons_of_some (hk : params.get? k = some value)
    {found : Except SceneError (Option World)} :
    Finds params (k :: keys) found ↔ params.findWorld (k :: keys) = found := by
  have hhere : FirstSet params (k :: keys) k value := (firstSet_cons_of_some hk).mpr ⟨rfl, rfl⟩
  constructor
  · rintro (hnone | hfirst | ⟨hfirst, hkind⟩)
    · rw [hnone k List.mem_cons_self] at hk
      cases hk
    · obtain ⟨rfl, rfl⟩ := (firstSet_cons_of_some hk).mp hfirst
      exact findWorld_cons_of_world hk
    · obtain ⟨rfl, rfl⟩ := (firstSet_cons_of_some hk).mp hfirst
      exact findWorld_cons_of_other hk hkind
  · rintro rfl
    by_cases hkind : value.kind = .world
    · obtain ⟨world, rfl⟩ : ∃ world, value = .world world := by
        cases value <;> first | exact ⟨_, rfl⟩ | cases hkind
      rw [findWorld_cons_of_world hk]
      exact .world hhere
    · rw [findWorld_cons_of_other hk hkind]
      exact .other hhere hkind

theorem findWorld_eq_iff {found : Except SceneError (Option World)} :
    params.findWorld keys = found ↔ Finds params keys found := by
  induction keys with
  | nil =>
      constructor
      · rintro rfl
        exact .nothing nofun
      · rintro (_ | hfirst | ⟨hfirst, _⟩)
        · rfl
        · exact (firstSet_nil hfirst).elim
        · exact (firstSet_nil hfirst).elim
  | cons k keys ih =>
      -- A key that is not set changes neither side; one that is set decides both.
      cases hk : params.get? k with
      | none => rw [findWorld_cons_of_none hk, finds_cons_of_none hk, ih]
      | some value => exact (finds_cons_of_some hk).symm

theorem FirstSet.findWorld_eq {world : World} (h : FirstSet params keys key (.world world)) :
    params.findWorld keys = .ok (some world) :=
  findWorld_eq_iff.mpr (.world h)

theorem findWorld_congr (hsame : ∀ key ∈ keys, other.get? key = params.get? key) :
    other.findWorld keys = params.findWorld keys := by
  induction keys with
  | nil => rfl
  | cons k keys ih =>
      obtain ⟨hk, hkeys⟩ := List.forall_mem_cons.mp hsame
      rw [findWorld, findWorld, world?, world?, read?, read?, hk, ih hkeys]

end Params

open Params (FirstSet)

/-- The rules by which parameters bind a world and a camera. -/
inductive Binds (params : Params) (renderer : String) :
    Except RenderError (World × Camera) → Prop
  | missingWorld : (∀ key ∈ worldKeys, params.get? key = none) →
    Binds params renderer (.error (.missingWorld renderer worldKeys))
  | otherThanWorld {key : String} {value : Param} : FirstSet params worldKeys key value →
    value.kind ≠ .world →
    Binds params renderer (.error (.scene (.paramType key .world value.kind)))
  | uncommittedWorld {key : String} {world : World} :
    FirstSet params worldKeys key (.world world) → world.isCommitted = false →
    Binds params renderer (.error (.uncommittedWorld renderer))
  | missingCamera {key : String} {world : World} :
    FirstSet params worldKeys key (.world world) → world.isCommitted = true →
    params.get? cameraKey = none → Binds params renderer (.error (.missingCamera renderer))
  | otherThanCamera {key : String} {world : World} {value : Param} :
    FirstSet params worldKeys key (.world world) → world.isCommitted = true →
    params.get? cameraKey = some value → value.kind ≠ .camera →
    Binds params renderer (.error (.scene (.paramType cameraKey .camera value.kind)))
  | bound {key : String} {world : World} {camera : Camera} :
    FirstSet params worldKeys key (.world world) → world.isCommitted = true →
    params.get? cameraKey = some (.camera camera) → Binds params renderer (.ok (world, camera))

variable {params other : Params} {renderer : String} {key : String} {world : World}

theorem resolveBinding_of_error {e : SceneError} (h : params.findWorld worldKeys = .error e) :
    resolveBinding params renderer = .error (.scene e) := by
  rw [resolveBinding, h]
  rfl

theorem resolveBinding_of_none (h : params.findWorld worldKeys = .ok none) :
    resolveBinding params renderer = .error (.missingWorld renderer worldKeys) := by
  rw [resolveBinding, h]
  rfl

theorem resolveBinding_of_uncommitted (h : params.findWorld worldKeys = .ok (some world))
    (hcommitted : world.isCommitted = false) :
    resolveBinding params renderer = .error (.uncommittedWorld renderer) := by
  rw [resolveBinding, h]
  change (if (!world.isCommitted) = true then _ else _) = _
  rw [hcommitted]
  rfl

theorem resolveBinding_of_committed (h : params.findWorld worldKeys = .ok (some world))
    (hcommitted : world.isCommitted = true) :
    resolveBinding params renderer =
      match params.camera? cameraKey with
      | .error e => .error (.scene e)
      | .ok none => .error (.missingCamera renderer)
      | .ok (some camera) => .ok (world, camera) := by
  rw [resolveBinding, h]
  change (if (!world.isCommitted) = true then _ else _) = _
  rw [hcommitted]
  rcases params.camera? cameraKey with e | _ | camera <;> rfl

theorem binds_resolveBinding (params : Params) (renderer : String) :
    Binds params renderer (resolveBinding params renderer) := by
  cases hfound : params.findWorld worldKeys with
  | error e =>
      rw [resolveBinding_of_error hfound]
      cases Params.findWorld_eq_iff.mp hfound with
      | other hfirst hkind => exact .otherThanWorld hfirst hkind
  | ok found =>
      cases Params.findWorld_eq_iff.mp hfound with
      | nothing hnone =>
          rw [resolveBinding_of_none hfound]
          exact .missingWorld hnone
      | @world key world hfirst =>
          cases hcommitted : world.isCommitted with
          | false =>
              rw [resolveBinding_of_uncommitted hfound hcommitted]
              exact .uncommittedWorld hfirst hcommitted
          | true =>
              rw [resolveBinding_of_committed hfound hcommitted]
              cases hkey : params.get? cameraKey with
              | none =>
                  rw [Params.camera?, Params.read?, hkey]
                  exact .missingCamera hfirst hcommitted hkey
              | some value =>
                  by_cases hkind : value.kind = .camera
                  · obtain ⟨camera, rfl⟩ : ∃ camera, value = .camera camera := by
                      cases value <;> first | exact ⟨_, rfl⟩ | cases hkind
                    rw [Params.camera?, Params.read?, hkey]
                    exact .bound hfirst hcommitted hkey
                  · rw [Params.camera?_of_other hkey hkind]
                    exact .otherThanCamera hfirst hcommitted hkey hkind

theorem Binds.resolveBinding_eq {result : Except RenderError (World × Camera)}
    (h : Binds params renderer result) : resolveBinding params renderer = result := by
  cases h with
  | missingWorld hnone => exact resolveBinding_of_none (Params.findWorld_eq_iff.mpr (.nothing hnone))
  | otherThanWorld hfirst hkind =>
      exact resolveBinding_of_error (Params.findWorld_eq_iff.mpr (.other hfirst hkind))
  | uncommittedWorld hfirst hcommitted =>
      exact resolveBinding_of_uncommitted hfirst.findWorld_eq hcommitted
  | missingCamera hfirst hcommitted hkey =>
      rw [resolveBinding_of_committed hfirst.findWorld_eq hcommitted, Params.camera?, Params.read?,
        hkey]
  | otherThanCamera hfirst hcommitted hkey hkind =>
      rw [resolveBinding_of_committed hfirst.findWorld_eq hcommitted,
        Params.camera?_of_other hkey hkind]
  | bound hfirst hcommitted hkey =>
      rw [resolveBinding_of_committed hfirst.findWorld_eq hcommitted, Params.camera?, Params.read?,
        hkey]

theorem resolveBinding_eq_iff {result : Except RenderError (World × Camera)} :
    resolveBinding params renderer = result ↔ Binds params renderer result :=
  ⟨fun h => h ▸ binds_resolveBinding params renderer, Binds.resolveBinding_eq⟩

theorem resolveBinding_missingWorld_iff :
    resolveBinding params renderer = .error (.missingWorld renderer worldKeys) ↔
      ∀ key ∈ worldKeys, params.get? key = none := by
  rw [resolveBinding_eq_iff]
  exact ⟨fun | .missingWorld hnone => hnone, .missingWorld⟩

theorem resolveBinding_otherThanWorld_iff {found : ParamKind} :
    resolveBinding params renderer = .error (.scene (.paramType key .world found)) ↔
      ∃ value, FirstSet params worldKeys key value ∧ value.kind ≠ .world ∧ found = value.kind := by
  rw [resolveBinding_eq_iff]
  constructor
  · rintro (_ | ⟨hfirst, hkind⟩)
    exact ⟨_, hfirst, hkind, rfl⟩
  · rintro ⟨value, hfirst, hkind, rfl⟩
    exact .otherThanWorld hfirst hkind

theorem resolveBinding_uncommittedWorld_iff :
    resolveBinding params renderer = .error (.uncommittedWorld renderer) ↔
      ∃ key world, FirstSet params worldKeys key (.world world) ∧ world.isCommitted = false := by
  rw [resolveBinding_eq_iff]
  constructor
  · rintro (_ | _ | ⟨hfirst, hcommitted⟩)
    exact ⟨_, _, hfirst, hcommitted⟩
  · rintro ⟨key, world, hfirst, hcommitted⟩
    exact .uncommittedWorld hfirst hcommitted

theorem resolveBinding_missingCamera_iff :
    resolveBinding params renderer = .error (.missingCamera renderer) ↔
      ∃ key world, FirstSet params worldKeys key (.world world) ∧ world.isCommitted = true ∧
        params.get? cameraKey = none := by
  rw [resolveBinding_eq_iff]
  constructor
  · rintro (_ | _ | _ | ⟨hfirst, hcommitted, hkey⟩)
    exact ⟨_, _, hfirst, hcommitted, hkey⟩
  · rintro ⟨key, world, hfirst, hcommitted, hkey⟩
    exact .missingCamera hfirst hcommitted hkey

theorem resolveBinding_otherThanCamera_iff {found : ParamKind} :
    resolveBinding params renderer = .error (.scene (.paramType key .camera found)) ↔
      key = cameraKey ∧ ∃ key world value, FirstSet params worldKeys key (.world world) ∧
        world.isCommitted = true ∧ params.get? cameraKey = some value ∧ value.kind ≠ .camera ∧
        found = value.kind := by
  rw [resolveBinding_eq_iff]
  constructor
  · rintro (_ | _ | _ | _ | ⟨hfirst, hcommitted, hkey, hkind⟩)
    exact ⟨rfl, _, _, _, hfirst, hcommitted, hkey, hkind, rfl⟩
  · rintro ⟨rfl, key, world, value, hfirst, hcommitted, hkey, hkind, rfl⟩
    exact .otherThanCamera hfirst hcommitted hkey hkind

theorem resolveBinding_eq_ok_iff {camera : Camera} :
    resolveBinding params renderer = .ok (world, camera) ↔
      (∃ key, FirstSet params worldKeys key (.world world)) ∧ world.isCommitted = true ∧
        params.get? cameraKey = some (.camera camera) := by
  rw [resolveBinding_eq_iff]
  constructor
  · rintro (_ | _ | _ | _ | _ | ⟨hfirst, hcommitted, hkey⟩)
    exact ⟨⟨_, hfirst⟩, hcommitted, hkey⟩
  · rintro ⟨⟨key, hfirst⟩, hcommitted, hkey⟩
    exact .bound hfirst hcommitted hkey

theorem resolveBinding_congr
    (hworld : ∀ key ∈ worldKeys, other.get? key = params.get? key)
    (hcamera : other.get? cameraKey = params.get? cameraKey) :
    resolveBinding other renderer = resolveBinding params renderer := by
  rw [resolveBinding, resolveBinding, Params.findWorld_congr hworld, Params.camera?, Params.camera?,
    Params.read?, Params.read?, hcamera]

/-- The first key that is set decides which world is found, or that none is. A binding fails for
lack of a world, for another value in its place, for a world without a commit, and only then for
lack of a camera or another value in its place; otherwise it is that world and that camera. Only
three parameters matter. -/
theorem resolveBinding_by_priority (params : Params) (renderer : String) :
    (∀ keys,
      (∀ world, params.findWorld keys = .ok (some world) ↔
        ∃ key, FirstSet params keys key (.world world)) ∧
      (∀ e, params.findWorld keys = .error e ↔ ∃ key value, FirstSet params keys key value ∧
        value.kind ≠ .world ∧ e = .paramType key .world value.kind) ∧
      (params.findWorld keys = .ok none ↔ ∀ key ∈ keys, params.get? key = none)) ∧
    (resolveBinding params renderer = .error (.missingWorld renderer ["world", "model"]) ↔
      params.get? "world" = none ∧ params.get? "model" = none) ∧
    (∀ key found, resolveBinding params renderer = .error (.scene (.paramType key .world found)) ↔
      ∃ value, FirstSet params ["world", "model"] key value ∧ value.kind ≠ .world ∧
        found = value.kind) ∧
    (resolveBinding params renderer = .error (.uncommittedWorld renderer) ↔
      ∃ key world, FirstSet params ["world", "model"] key (.world world) ∧
        world.isCommitted = false) ∧
    (resolveBinding params renderer = .error (.missingCamera renderer) ↔
      ∃ key world, FirstSet params ["world", "model"] key (.world world) ∧
        world.isCommitted = true ∧ params.get? "camera" = none) ∧
    (∀ key found, resolveBinding params renderer = .error (.scene (.paramType key .camera found)) ↔
      key = "camera" ∧ ∃ key world value, FirstSet params ["world", "model"] key (.world world) ∧
        world.isCommitted = true ∧ params.get? "camera" = some value ∧ value.kind ≠ .camera ∧
        found = value.kind) ∧
    (∀ world camera, resolveBinding params renderer = .ok (world, camera) ↔
      (∃ key, FirstSet params ["world", "model"] key (.world world)) ∧
        world.isCommitted = true ∧ params.get? "camera" = some (.camera camera)) ∧
    Binds params renderer (resolveBinding params renderer) ∧
    ∀ other : Params, (∀ key ∈ ["world", "model", "camera"], other.get? key = params.get? key) →
      resolveBinding other renderer = resolveBinding params renderer := by
  refine ⟨fun keys => ⟨fun world => ?_, fun e => ?_, ?_⟩, ?_,
    fun _ _ => resolveBinding_otherThanWorld_iff, resolveBinding_uncommittedWorld_iff,
    resolveBinding_missingCamera_iff, fun _ _ => resolveBinding_otherThanCamera_iff,
    fun _ _ => resolveBinding_eq_ok_iff, binds_resolveBinding params renderer, fun other hsame => ?_⟩
  · exact Params.findWorld_eq_iff.trans
      ⟨fun | .world hfirst => ⟨_, hfirst⟩, fun ⟨_, hfirst⟩ => .world hfirst⟩
  · rw [Params.findWorld_eq_iff]
    constructor
    · rintro (_ | _ | ⟨hfirst, hkind⟩)
      exact ⟨_, _, hfirst, hkind, rfl⟩
    · rintro ⟨key, value, hfirst, hkind, rfl⟩
      exact .other hfirst hkind
  · exact Params.findWorld_eq_iff.trans ⟨fun | .nothing hnone => hnone, .nothing⟩
  · exact resolveBinding_missingWorld_iff.trans (by simp [worldKeys])
  · simp only [List.forall_mem_cons] at hsame
    exact resolveBinding_congr (by simpa [worldKeys] using ⟨hsame.1, hsame.2.1⟩) hsame.2.2.1

end TileTracer
