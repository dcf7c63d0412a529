import TileTracer.Proofs.FirstHits
import TileTracer.Proofs.StreamDraws

namespace TileTracer

open TileTracer.Random (Stream)

theorem Material.scatter_leadsTo (m : Material) (incoming : Ray Float32) (hit : Hit Float32)
    (rng : Stream) : rng.LeadsTo (m.scatter incoming hit rng).2 := by
  cases m with
  | lambertian color => exact Random.unitVector_leadsTo rng
  | metal color roughness =>
      unfold scatter scatterMetal
      dsimp only
      split <;> exact Random.unitVector_leadsTo rng
  | glass eta =>
      unfold scatter scatterGlass
      dsimp only
      generalize (if hit.frontFace then 1.0 / eta else eta) = ratio
      split
      · exact .refl rng
      · split <;> exact .unit rng
  | luminous color intensity => exact .refl rng

/-! ## How a path ends -/

inductive Ending where
  /-- The ray leaves the scene. -/
  | escaped
  /-- A surface takes all light. -/
  | absorbed
  /-- Too little light is left after a scattering. -/
  | faded
  deriving DecidableEq, Repr

namespace Path

variable {settings : Settings} {world : World} {screen : Vec2 Float32}

/-- How the segment at whose start a path is ends it, if it does. -/
def ending? (settings : Settings) (world : World) (p : Path) : Option Ending :=
  let w := Window.startingAt settings.epsilon
  let surface := world.trace p.ray w
  let near := (surface.map (·.t)).getD Scalar.infinity
  let fading (attenuation : Color) : Option Ending :=
    if (p.throughput * attenuation).largest < settings.minContribution then some .faded else none
  match mediumEvent world p.ray (w.upTo near) p.rng, surface with
  | (some (_, medium), _), _ => fading medium.albedo
  | (none, _), none => some .escaped
  | (none, rng), some hit =>
    match (((world.material? hit.owner).getD fallbackMaterial).scatter p.ray hit rng).1 with
    | none => some .absorbed
    | some s => fading s.attenuation

theorem continued_leadsTo (p : Path) (attenuation : Color)
    {ray : Path → Ray Float32 × Stream} (hray : ∀ q : Path, q.rng.LeadsTo (ray q).2) :
    p.rng.LeadsTo (p.continued settings attenuation ray).path.rng := by
  unfold continued
  dsimp only
  split
  · exact .refl _
  · exact hray { p with throughput := p.throughput * attenuation }

theorem continued_ended_iff (p : Path) (attenuation : Color)
    (ray : Path → Ray Float32 × Stream) :
    (∃ q, p.continued settings attenuation ray = .ended q) ↔
      (p.throughput * attenuation).largest < settings.minContribution := by
  unfold continued
  dsimp only
  split
  · next hfaint => exact iff_of_true ⟨_, rfl⟩ hfaint
  · next hbright => exact iff_of_false (fun ⟨_, h⟩ => nomatch h) hbright

theorem note_ray (p : Path) (isFirst : Bool) (hit : FirstHit) :
    (p.note isFirst hit).ray = p.ray := by
  cases isFirst <;> rfl

theorem note_rng (p : Path) (isFirst : Bool) (hit : FirstHit) :
    (p.note isFirst hit).rng = p.rng := by
  cases isFirst <;> rfl

theorem note_throughput (p : Path) (isFirst : Bool) (hit : FirstHit) :
    (p.note isFirst hit).throughput = p.throughput := by
  cases isFirst <;> rfl

theorem escape_rng (p : Path) (isFirst : Bool) :
    (p.escape settings screen isFirst).rng = p.rng := by
  unfold escape
  split <;> rfl

theorem scatterInMedium_leadsTo (isFirst : Bool) (p : Path) (t : Float32) (medium : Medium) :
    p.rng.LeadsTo (scatterInMedium settings isFirst p t medium).path.rng := by
  unfold scatterInMedium
  dsimp only
  rw [← note_rng p isFirst]
  exact continued_leadsTo _ _ fun q : Path => Random.unitVector_leadsTo q.rng

theorem scatterInMedium_ended_iff (isFirst : Bool) (p : Path) (t : Float32) (medium : Medium) :
    (∃ q, scatterInMedium settings isFirst p t medium = .ended q) ↔
      (p.throughput * medium.albedo).largest < settings.minContribution := by
  unfold scatterInMedium
  dsimp only
  rw [continued_ended_iff, note_throughput]

theorem meet_leadsTo (material : Material) (isFirst : Bool) (p : Path) (hit : Hit Float32) :
    p.rng.LeadsTo (p.meet settings material isFirst hit).path.rng := by
  have hscatter := material.scatter_leadsTo p.ray hit p.rng
  unfold meet gather
  dsimp only
  rw [note_ray, note_rng]
  generalize material.scatter p.ray hit p.rng = scattered at hscatter ⊢
  obtain ⟨_ | s, rng⟩ := scattered
  · exact hscatter
  · exact hscatter.trans (continued_leadsTo _ _ fun q : Path => .refl q.rng)

theorem meet_ended_iff (material : Material) (isFirst : Bool) (p : Path) (hit : Hit Float32) :
    (∃ q, p.meet settings material isFirst hit = .ended q) ↔
      ∀ s, (material.scatter p.ray hit p.rng).1 = some s →
        (p.throughput * s.attenuation).largest < settings.minContribution := by
  unfold meet gather
  dsimp only
  rw [note_ray, note_rng]
  generalize material.scatter p.ray hit p.rng = scattered
  obtain ⟨_ | s, rng⟩ := scattered
  · exact iff_of_true ⟨_, rfl⟩ fun s hs => nomatch hs
  · dsimp only
    rw [continued_ended_iff]
    dsimp only
    rw [note_throughput]
    constructor
    · rintro hfaint _ ⟨⟩
      exact hfaint
    · intro hfaint
      exact hfaint s rfl

theorem segment_leadsTo (isFirst : Bool) (p : Path) :
    p.rng.LeadsTo (p.segment settings world screen isFirst).path.rng := by
  have hmedium (w : Window Float32) : p.rng.LeadsTo (mediumEvent world p.ray w p.rng).2 := by
    unfold mediumEvent
    split
    · exact .refl _
    · split
      · exact .refl _
      · dsimp only
        split <;> exact .unit _
  unfold segment
  dsimp only
  generalize hevent : mediumEvent world p.ray _ p.rng = event
  have hevent := hevent ▸ hmedium _
  obtain ⟨_ | ⟨t, medium⟩, rng⟩ := event
  · cases world.trace p.ray (.startingAt settings.epsilon) with
    | none =>
        change p.rng.LeadsTo (escape settings screen isFirst _).rng
        rw [escape_rng]
        exact hevent
    | some hit => exact hevent.trans (meet_leadsTo _ isFirst { p with rng } hit)
  · exact hevent.trans (scatterInMedium_leadsTo isFirst { p with rng } t medium)

/-- A segment ends its path if the path escapes, is absorbed or fades in it, and not otherwise. -/
theorem segment_ended_iff (isFirst : Bool) (p : Path) :
    (∃ q, p.segment settings world screen isFirst = .ended q) ↔
      (p.ending? settings world).isSome := by
  have hfading (attenuation : Color) :
      (if (p.throughput * attenuation).largest < settings.minContribution then some Ending.faded
        else none).isSome ↔ (p.throughput * attenuation).largest < settings.minContribution := by
    split <;> simp_all
  unfold segment ending?
  dsimp only
  generalize mediumEvent world p.ray _ p.rng = event
  obtain ⟨_ | ⟨t, medium⟩, rng⟩ := event
  · cases world.trace p.ray (.startingAt settings.epsilon) with
    | none => exact iff_of_true ⟨_, rfl⟩ rfl
    | some hit =>
        dsimp only
        rw [meet_ended_iff]
        cases (((world.material? hit.owner).getD fallbackMaterial).scatter p.ray hit rng).1 with
        | none => exact iff_of_true (fun s hs => nomatch hs) rfl
        | some s =>
            rw [hfading]
            constructor
            · intro hfaint
              exact hfaint s rfl
            · rintro hfaint _ ⟨⟩
              exact hfaint
  · dsimp only
    rw [scatterInMedium_ended_iff, hfading]

end Path

/-! ## Legs -/

/-- A segment that has been followed, and the path at its start. -/
structure Leg where
  start : Path
  outcome : Segment
  deriving DecidableEq, Repr

namespace Path

variable (settings : Settings) (world : World) (screen : Vec2 Float32)

def legs (settings : Settings) (world : World) (screen : Vec2 Float32) :
    Nat → Bool → Path → List Leg
  | 0, _, _ => []
  | n + 1, isFirst, p =>
    let outcome := p.segment settings world screen isFirst
    ⟨p, outcome⟩ :: match outcome with
      | .ended _ => []
      | .onward q => legs settings world screen n false q

def traceLegs (ray : Ray Float32) (rng : Stream) : List Leg :=
  legs settings world screen settings.maxDepth.toNat true (start ray rng)

theorem follow_eq_legs (n : Nat) (isFirst : Bool) (p : Path) :
    p.follow settings world screen n isFirst =
      ((p.legs settings world screen n isFirst).getLast?.map (·.outcome.path)).getD p := by
  induction n generalizing isFirst p with
  | zero => rfl
  | succ n ih =>
      rw [follow, legs, List.getLast?_cons]
      cases p.segment settings world screen isFirst with
      | ended q => rfl
      | onward q =>
          refine (ih false q).trans ?_
          dsimp only
          cases (legs settings world screen n false q).getLast? <;> rfl

/-- The number of segments allowed decides only where the list of them is cut off. -/
theorem take_legs {n m : Nat} (h : n ≤ m) (isFirst : Bool) (p : Path) :
    (p.legs settings world screen m isFirst).take n = p.legs settings world screen n isFirst := by
  induction n generalizing m isFirst p with
  | zero => rfl
  | succ n ih =>
      obtain ⟨m, rfl⟩ := Nat.exists_eq_add_one_of_ne_zero (Nat.ne_zero_of_lt h)
      rw [legs, legs, List.take_succ_cons]
      cases p.segment settings world screen isFirst with
      | ended q => exact congrArg _ List.take_nil
      | onward q => exact congrArg _ (ih (Nat.le_of_succ_le_succ h) false q)

variable {settings world screen}

theorem legs_eq_of_ended {n m : Nat} (h : n ≤ m) {isFirst : Bool} {p : Path}
    (hended : ∃ leg ∈ p.legs settings world screen n isFirst, ∃ q, leg.outcome = .ended q) :
    p.legs settings world screen m isFirst = p.legs settings world screen n isFirst := by
  induction n generalizing m isFirst p with
  | zero =>
      obtain ⟨leg, hleg, _⟩ := hended
      cases hleg
  | succ n ih =>
      obtain ⟨m, rfl⟩ := Nat.exists_eq_add_one_of_ne_zero (Nat.ne_zero_of_lt h)
      obtain ⟨leg, hleg, hended⟩ := hended
      rw [legs] at hleg ⊢
      rw [legs]
      cases hsegment : p.segment settings world screen isFirst with
      | ended q => rfl
      | onward q =>
          rw [hsegment] at hleg
          rcases List.mem_cons.mp hleg with rfl | hleg
          · obtain ⟨_, hended⟩ := hended
            cases hended
          · exact congrArg _ (ih (Nat.le_of_succ_le_succ h) ⟨leg, hleg, hended⟩)

theorem length_legs_of_onward {n : Nat} {isFirst : Bool} {p : Path}
    (honward : ∀ leg ∈ p.legs settings world screen n isFirst, ∀ q, leg.outcome ≠ .ended q) :
    (p.legs settings world screen n isFirst).length = n := by
  induction n generalizing isFirst p with
  | zero => rfl
  | succ n ih =>
      rw [legs] at honward ⊢
      cases hsegment : p.segment settings world screen isFirst with
      | ended q => exact absurd hsegment (honward _ List.mem_cons_self q)
      | onward q =>
          rw [hsegment] at honward
          exact congrArg (· + 1) (ih fun leg hleg => honward leg (List.mem_cons_of_mem _ hleg))

theorem outcome_of_mem_legs {n : Nat} {isFirst : Bool} {p : Path} {leg : Leg}
    (hleg : leg ∈ p.legs settings world screen n isFirst) :
    ∃ isFirst, leg.outcome = leg.start.segment settings world screen isFirst := by
  induction n generalizing isFirst p with
  | zero => cases hleg
  | succ n ih =>
      rw [legs] at hleg
      rcases List.mem_cons.mp hleg with rfl | hleg
      · exact ⟨isFirst, rfl⟩
      · cases hsegment : p.segment settings world screen isFirst with
        | ended q =>
            rw [hsegment] at hleg
            cases hleg
        | onward q =>
            rw [hsegment] at hleg
            exact ih hleg

theorem legs_maxDepth (depth : UInt32) (n : Nat) (isFirst : Bool) (p : Path) :
    p.legs { settings with maxDepth := depth } world screen n isFirst =
      p.legs settings world screen n isFirst := by
  induction n generalizing isFirst p with
  | zero => rfl
  | succ n ih =>
      have hsegment : p.segment { settings with maxDepth := depth } world screen isFirst =
          p.segment settings world screen isFirst := rfl
      rw [legs, legs, hsegment]
      cases p.segment settings world screen isFirst with
      | ended q => rfl
      | onward q => exact congrArg _ (ih false q)

theorem traceLegs_maxDepth (depth : UInt32) (ray : Ray Float32) (rng : Stream) :
    traceLegs { settings with maxDepth := depth } world screen ray rng =
      (start ray rng).legs settings world screen depth.toNat true :=
  legs_maxDepth depth depth.toNat true (start ray rng)

theorem trace_eq_traceLegs (settings : Settings) (world : World) (screen : Vec2 Float32)
    (ray : Ray Float32) (rng : Stream) :
    trace settings world screen ray rng =
      ((traceLegs settings world screen ray rng).getLast?.map (·.outcome.path)).getD
        (start ray rng) :=
  follow_eq_legs settings world screen _ true (start ray rng)

/-- If more segments are allowed, the path of a camera ray begins with the same ones: from the same
rays, throughputs, samples and random numbers to the same. A path that escapes, is absorbed or fades
comes to the same end; one that does not has all the segments that it may have. -/
theorem trace_deeper (settings : Settings) (world : World) (screen : Vec2 Float32)
    (ray : Ray Float32) (rng : Stream) {n m : UInt32} (hnm : n ≤ m) :
    let shallow := { settings with maxDepth := n }
    let deep := { settings with maxDepth := m }
    let legs := traceLegs shallow world screen ray rng
    legs = (traceLegs deep world screen ray rng).take n.toNat ∧
      (∀ leg ∈ legs, (leg.start.ending? settings world).isSome →
        traceLegs deep world screen ray rng = legs ∧
          trace deep world screen ray rng = trace shallow world screen ray rng) ∧
      ((∀ leg ∈ legs, leg.start.ending? settings world = none) → legs.length = n.toNat) ∧
      ∀ leg ∈ traceLegs deep world screen ray rng,
        leg.start.rng.LeadsTo leg.outcome.path.rng := by
  have hnm : n.toNat ≤ m.toNat := UInt32.le_iff_toNat_le.mp hnm
  intro shallow deep legs
  -- Nothing on a segment reads how many of them are allowed, so both runs have legs of `settings`.
  have hlegs : legs = (start ray rng).legs settings world screen n.toNat true :=
    traceLegs_maxDepth n ray rng
  have hdeep : traceLegs deep world screen ray rng =
      (start ray rng).legs settings world screen m.toNat true :=
    traceLegs_maxDepth m ray rng
  have hended {leg : Leg} (hleg : leg ∈ legs) :
      (∃ q, leg.outcome = .ended q) ↔ (leg.start.ending? settings world).isSome := by
    rw [hlegs] at hleg
    obtain ⟨isFirst, houtcome⟩ := outcome_of_mem_legs hleg
    rw [houtcome]
    exact segment_ended_iff isFirst leg.start
  refine ⟨?_, ?_, ?_, ?_⟩
  · rw [hlegs, hdeep, take_legs _ _ _ hnm]
  · intro leg hleg hending
    have hsame : traceLegs deep world screen ray rng = legs := by
      rw [hdeep, hlegs]
      rw [hlegs] at hleg
      exact legs_eq_of_ended hnm ⟨leg, hleg, (hended (hlegs ▸ hleg)).mpr hending⟩
    refine ⟨hsame, ?_⟩
    rw [trace_eq_traceLegs, hsame, trace_eq_traceLegs shallow]
  · intro honward
    rw [hlegs]
    refine length_legs_of_onward fun leg hleg q hq => ?_
    have hleg : leg ∈ legs := hlegs ▸ hleg
    have hending := (hended hleg).mp ⟨q, hq⟩
    rw [honward leg hleg] at hending
    cases hending
  · intro leg hleg
    rw [hdeep] at hleg
    obtain ⟨isFirst, houtcome⟩ := outcome_of_mem_legs hleg
    rw [houtcome]
    exact segment_leadsTo isFirst leg.start

/-- A ray falls onto a mirror, returns and leaves the scene in its second segment. -/
theorem trace_deeper_mirror :
    let world := World.run (.withPolicy fun _ _ => none)
      [.setInstances [(Instance.geometry "mirror" (.sphere ⟨0, 0, -5⟩ 0.5)).withMaterial
        (.metal .one 0)], .commit]
    let ray : Ray Float32 := ⟨⟨0, 0, 0⟩, ⟨0, 0, -1⟩⟩
    let rng := Stream.ofSeed 7
    let legs := traceLegs { Settings.default with maxDepth := 2 } world ⟨0, 0⟩ ray rng
    legs.map (fun leg => leg.start.ending? .default world) = [none, some .escaped] ∧
      traceLegs { Settings.default with maxDepth := 20 } world ⟨0, 0⟩ ray rng = legs := by
  intro world ray rng legs
  have hendings : legs.map (fun leg => leg.start.ending? .default world) =
      [none, some .escaped] := by
    decide +kernel
  refine ⟨hendings, ?_⟩
  have hescaped : some Ending.escaped ∈
      legs.map (fun leg => leg.start.ending? .default world) := by
    rw [hendings]
    exact List.mem_cons_of_mem _ List.mem_cons_self
  obtain ⟨leg, hleg, hending⟩ := List.mem_map.mp hescaped
  have hsome : (leg.start.ending? .default world).isSome := by
    rw [hending]
    rfl
  have hallowed : (2 : UInt32) ≤ 20 := by decide
  obtain ⟨_, hended, _⟩ := trace_deeper .default world ⟨0, 0⟩ ray rng hallowed
  exact (hended leg hleg hsome).1

end Path

end TileTracer
