import Mathlib.Data.List.DropRight
import TileTracer.Proofs.FreshChannels
import TileTracer.Proofs.RendererHistory

namespace TileTracer

/-- An order of tiles that names each of them once in every buffer. -/
structure TileOrder where
  places : FrameBuffer → List Nat
  complete : ∀ tiles, FrameBuffer.IsTileOrder tiles places

namespace TileOrder

def center : TileOrder := ⟨FrameBuffer.centerOrder, FrameBuffer.centerOrder_isTileOrder⟩

def grid : TileOrder := ⟨FrameBuffer.gridOrder, FrameBuffer.gridOrder_isTileOrder⟩

end TileOrder

/-- What becomes of the samples of a frame buffer. -/
inductive SessionEvent where
  /-- Every tile was rendered once for the commit of this generation. -/
  | rendered (generation : Option Nat)
  /-- The samples of every tile were dropped. -/
  | dropped
  deriving DecidableEq

namespace SessionEvent

def isRendered : SessionEvent → Bool
  | rendered _ => true
  | dropped => false

/-- The number of frames of one commit that the events end with. -/
def latest (generation : Option Nat) (events : List SessionEvent) : Nat :=
  (events.rtakeWhile (· = rendered generation)).length

theorem latest_nil (generation : Option Nat) : latest generation [] = 0 := rfl

theorem latest_dropped (generation : Option Nat) (events : List SessionEvent) :
    latest generation (events ++ [dropped]) = 0 := by
  rw [latest, List.rtakeWhile_concat_neg _ _ _ (by simp), List.length_nil]

theorem latest_rendered_same (generation : Option Nat) (events : List SessionEvent) :
    latest generation (events ++ [rendered generation]) = latest generation events + 1 := by
  rw [latest, List.rtakeWhile_concat_pos _ _ _ (by simp), List.length_append]
  rfl

theorem latest_rendered_other {generation other : Option Nat} (h : generation ≠ other)
    (events : List SessionEvent) : latest generation (events ++ [rendered other]) = 0 := by
  rw [latest, List.rtakeWhile_concat_neg _ _ _ (by simpa using h.symm), List.length_nil]

end SessionEvent

inductive SessionCommand (ι : Type) where
  | renderer (command : RendererCommand ι)
  | render (i : ι) (order : TileOrder)
  | resetAccumulation
  | resize (width height : Nat)
  | setFormat (format : PixelFormat)
  | addOp (op : FrameOp)
  | clearOps

/-- Renderers, the frame buffer that they share, and what has become of its samples. -/
structure Session (ι : Type) where
  studio : Studio ι
  buffer : FrameBuffer
  events : List SessionEvent

theorem Renderer.renderFrame_of_none {r : Renderer} (hcommitted : r.committed = none)
    (order : FrameBuffer → List Nat) (fb : FrameBuffer) :
    r.renderFrame order fb = .error (.notCommitted typeName) := by
  rw [renderFrame, createJob_eq, hcommitted]
  rfl

namespace FrameBuffer

theorem setLayout_cases (fb : FrameBuffer) (layout : Layout) :
    (fb.setLayout layout).1 = fb ∨
      layout ≠ fb.layout ∧ (fb.setLayout layout).1 = fb.relayout layout := by
  unfold setLayout
  split
  · exact .inl rfl
  · rename_i hother
    exact .inr ⟨hother, rfl⟩

theorem step_resize_cases (fb : FrameBuffer) (width height : Nat) :
    fb.step (.resize width height) = fb ∨
      ∃ layout, layout ≠ fb.layout ∧ fb.step (.resize width height) = fb.relayout layout := by
  unfold step resize
  dsimp only
  by_cases hsize : (width = 0 || height = 0) = true
  · rw [if_pos hsize]
    exact .inl rfl
  · rw [if_neg hsize]
    exact (fb.setLayout_cases _).imp_right fun hnew => ⟨_, hnew⟩

theorem step_addOp_eq (fb : FrameBuffer) (op : FrameOp) :
    ∃ stages, fb.step (.addOp op) = { fb with stages } := by
  unfold step addOp
  dsimp only
  cases op.attach fb.layout with
  | error e => exact ⟨fb.stages, rfl⟩
  | ok stage => exact ⟨fb.stages ++ [stage], rfl⟩

end FrameBuffer

namespace Session

variable {ι : Type}

/-- A buffer after a change that drops the samples if it is one of the layout. -/
def relaid (s : Session ι) (buffer : FrameBuffer) : Session ι :=
  { s with
    buffer
    events := if buffer.layout = s.buffer.layout then s.events else s.events ++ [.dropped] }

/-- A command that fails changes nothing. -/
def step [DecidableEq ι] (s : Session ι) : SessionCommand ι → Session ι
  | .renderer command => { s with studio := s.studio.step command }
  | .render i order => match (s.studio.renderers i).renderFrame order.places s.buffer with
    | .ok buffer =>
      { s with buffer, events := s.events ++ [.rendered (s.studio.renderers i).generation?] }
    | .error _ => s
  | .resetAccumulation =>
    { s with buffer := s.buffer.resetAccumulation, events := s.events ++ [.dropped] }
  | .resize width height => s.relaid (s.buffer.step (.resize width height))
  | .setFormat format => s.relaid (s.buffer.step (.setFormat format))
  | .addOp op => { s with buffer := s.buffer.step (.addOp op) }
  | .clearOps => { s with buffer := s.buffer.clearOps }

def run [DecidableEq ι] (s : Session ι) (commands : List (SessionCommand ι)) : Session ι :=
  commands.foldl step s

def start (settings : ι → Settings) (palettes : ι → Palette) (counter : GenerationCounter)
    (buffer : FrameBuffer) : Session ι where
  studio := .fresh settings palettes counter
  buffer
  events := []

def samplesOf (s : Session ι) (i : ι) : Nat :=
  max (s.studio.renderers i).settings.samplesPerPixel.toNat 1

/-- The counters of a tile are those of the latest frames of its own commit. -/
structure Tallied (s : Session ι) (t : Tile) : Prop where
  passes : t.passes = SessionEvent.latest (some t.generation) s.events
  others : ∀ g, g ≠ some t.generation → SessionEvent.latest g s.events = 0
  handedOut : (t.passes = 0 ∧ t.samples = 0) ∨ t.generation < s.studio.counter.next
  samples : ∀ i, (s.studio.renderers i).generation? = some t.generation →
    t.samples = t.passes * s.samplesOf i

structure Consistent (s : Session ι) : Prop where
  numbered : s.studio.Numbered
  buffer : s.buffer.WellFormed
  frames : s.buffer.frames = s.events.countP SessionEvent.isRendered
  tiles : ∀ t ∈ s.buffer.tiles, s.Tallied t

variable {s : Session ι} {t : Tile}

theorem Tallied.of_dropped (hpasses : t.passes = 0) (hsamples : t.samples = 0)
    (hlatest : ∀ g, SessionEvent.latest g s.events = 0) : s.Tallied t where
  passes := hpasses.trans (hlatest _).symm
  others := fun g _ => hlatest g
  handedOut := .inl ⟨hpasses, hsamples⟩
  samples := by
    intro i _
    rw [hpasses, hsamples, Nat.zero_mul]

theorem Tallied.renderer [DecidableEq ι] (h : s.Tallied t) (command : RendererCommand ι) :
    (s.step (.renderer command)).Tallied t where
  passes := h.passes
  others := h.others
  handedOut := h.handedOut.imp_right fun hlt =>
    Nat.lt_of_lt_of_le hlt (s.studio.next_le_step command)
  samples := by
    intro i hi
    have hsettings : (s.step (.renderer command)).samplesOf i = s.samplesOf i := by
      simp only [samplesOf, step, Studio.step_settings]
    rw [hsettings]
    rcases s.studio.step_generation? command i with hsame | hnew
    · exact h.samples i (hsame.symm.trans hi)
    · -- A generation that is only now handed out has no samples yet.
      have hnext : t.generation = s.studio.counter.next := Option.some.inj (hi.symm.trans hnew)
      rcases h.handedOut with ⟨hpasses, hsamples⟩ | hlt
      · rw [hpasses, hsamples, Nat.zero_mul]
      · exact absurd hnext (Nat.ne_of_lt hlt)

theorem Tallied.beginPass (h : s.Tallied t) (generation : Nat) :
    (t.beginPass generation).generation = generation ∧
      (t.beginPass generation).passes = SessionEvent.latest (some generation) s.events ∧
      ∀ i, (s.studio.renderers i).generation? = some generation →
        (t.beginPass generation).samples = (t.beginPass generation).passes * s.samplesOf i := by
  unfold Tile.beginPass
  split
  · rename_i hsame
    subst hsame
    exact ⟨rfl, h.passes, h.samples⟩
  · rename_i hother
    have hnone := h.others (some generation) (by simpa using Ne.symm hother)
    exact ⟨rfl, hnone.symm, fun i _ => (Nat.zero_mul _).symm⟩

theorem Tallied.render (h : s.Tallied t) (hnumbered : s.studio.Numbered) {i : ι} {c : Commitment}
    (hcommitted : (s.studio.renderers i).committed = some c) (layout : Layout)
    (buffer : FrameBuffer) :
    Tallied { s with buffer, events := s.events ++ [.rendered (some c.generation)] }
      ((c.job (s.studio.renderers i).settings layout).renderTile t) := by
  let job := c.job (s.studio.renderers i).settings layout
  have hshown : (s.studio.renderers i).generation? = some c.generation := by
    rw [Renderer.generation?, hcommitted, Option.map_some]
  obtain ⟨hgeneration, hpasses, hsamples⟩ := h.beginPass c.generation
  obtain ⟨hgeneration', hcounters⟩ := Prod.mk.inj (job.renderBound_counters c.world c.camera t)
  obtain ⟨hpasses', hsamples'⟩ := Prod.mk.inj hcounters
  change Tallied _ (job.renderBound c.world c.camera t)
  have hown : (job.renderBound c.world c.camera t).generation = c.generation :=
    hgeneration'.trans hgeneration
  constructor
  · rw [hown, SessionEvent.latest_rendered_same, hpasses']
    exact congrArg (· + 1) hpasses
  · intro g hg
    rw [hown] at hg
    exact SessionEvent.latest_rendered_other hg s.events
  · rw [hown]
    exact .inr (hnumbered.lt_next i c.generation hshown)
  · intro j hj
    rw [hown] at hj
    obtain rfl := hnumbered.inj j i c.generation hj hshown
    rw [hsamples', hpasses', Nat.add_mul, Nat.one_mul]
    exact congrArg (· + job.samples) (hsamples j hshown)

theorem Consistent.relaid (h : s.Consistent) {buffer : FrameBuffer} (hbuffer : buffer.WellFormed)
    (hcases : buffer = s.buffer ∨
      ∃ layout, layout ≠ s.buffer.layout ∧ buffer = s.buffer.relayout layout) :
    (s.relaid buffer).Consistent := by
  rcases hcases with rfl | ⟨layout, hother, rfl⟩
  · have hsame : s.relaid s.buffer = s := by
      rw [Session.relaid, if_pos rfl]
    rwa [hsame]
  · have hevents : (s.relaid (s.buffer.relayout layout)).events = s.events ++ [.dropped] :=
      if_neg hother
    refine ⟨h.numbered, hbuffer, ?_, ?_⟩
    · rw [hevents, List.countP_append]
      exact h.frames
    · intro t ht
      obtain ⟨r, _, rfl⟩ := List.mem_map.mp (List.mem_toArray.mp ht)
      refine .of_dropped rfl rfl fun g => ?_
      rw [hevents, SessionEvent.latest_dropped]

theorem Consistent.counters (h : s.Consistent) {i : ι} {g : Nat} {events : List SessionEvent}
    (hshown : (s.studio.renderers i).generation? = some g)
    (hevents : s.events = events ++ [.rendered (some g)]) {k : Nat}
    (hk : k = SessionEvent.latest (some g) s.events) :
    (∀ t ∈ s.buffer.tiles, t.passes = k ∧ t.samples = k * s.samplesOf i) ∧
      s.buffer.leastSamples = k * s.samplesOf i := by
  have htiles : ∀ t ∈ s.buffer.tiles, t.passes = k ∧ t.samples = k * s.samplesOf i := by
    intro t ht
    have htally := h.tiles t ht
    -- The events end with a frame of this commit, so no tile belongs to another one.
    have hown : some g = some t.generation := by
      by_contra hother
      have hnone := htally.others _ hother
      rw [hevents, SessionEvent.latest_rendered_same] at hnone
      cases hnone
    have hpasses : t.passes = k := by rw [hk, hown, htally.passes]
    exact ⟨hpasses, hpasses ▸ htally.samples i (hshown.trans hown)⟩
  obtain ⟨n, t, ht, _⟩ := h.buffer.tiles.exists_covers h.buffer.width_pos h.buffer.height_pos
  exact ⟨htiles, FrameBuffer.leastSamples_eq (Array.mem_of_getElem? ht) fun t ht => (htiles t ht).2⟩

variable [DecidableEq ι]

theorem step_render_of_none {i : ι} (hcommitted : (s.studio.renderers i).committed = none)
    (order : TileOrder) : s.step (.render i order) = s := by
  simp only [step, Renderer.renderFrame_of_none hcommitted]

theorem step_render {i : ι} {c : Commitment}
    (hcommitted : (s.studio.renderers i).committed = some c) (hbuffer : s.buffer.WellFormed)
    (order : TileOrder) :
    s.step (.render i order) = { s with
      buffer := s.buffer.rendered (c.job (s.studio.renderers i).settings s.buffer.layout) 1
      events := s.events ++ [.rendered (some c.generation)] } := by
  simp only [step, hbuffer.renderFrame_eq hcommitted (order.complete _), Renderer.generation?,
    hcommitted, Option.map_some]

theorem Consistent.step (h : s.Consistent) (command : SessionCommand ι) :
    (s.step command).Consistent := by
  cases command with
  | renderer command =>
      refine ⟨h.numbered.step command, h.buffer, h.frames, ?_⟩
      intro t ht
      exact (h.tiles t ht).renderer command
  | render i order =>
      cases hcommitted : (s.studio.renderers i).committed with
      | none => rwa [step_render_of_none hcommitted]
      | some c =>
          rw [step_render hcommitted h.buffer]
          refine ⟨h.numbered, h.buffer.rendered hcommitted (order.complete _), ?_, ?_⟩
          · rw [List.countP_append]
            exact congrArg (· + 1) h.frames
          · intro t ht
            obtain ⟨u, hu, rfl⟩ := Array.mem_map.mp ht
            exact (h.tiles u hu).render h.numbered hcommitted s.buffer.layout _
  | resetAccumulation =>
      refine ⟨h.numbered, h.buffer.step .resetAccumulation, ?_, ?_⟩
      · simp only [Session.step, List.countP_append]
        exact h.frames
      · intro t ht
        obtain ⟨u, _, rfl⟩ := Array.mem_map.mp ht
        exact .of_dropped rfl rfl fun g => SessionEvent.latest_dropped g s.events
  | resize width height =>
      exact h.relaid (h.buffer.step _) (s.buffer.step_resize_cases width height)
  | setFormat format =>
      exact h.relaid (h.buffer.step _)
        ((s.buffer.setLayout_cases _).imp_right fun hnew => ⟨_, hnew⟩)
  | addOp op =>
      have hbuffer := h.buffer.step (.addOp op)
      obtain ⟨stages, hstages⟩ := s.buffer.step_addOp_eq op
      unfold Session.step
      dsimp only
      rw [hstages] at hbuffer ⊢
      exact ⟨h.numbered, hbuffer, h.frames, fun t ht => { h.tiles t ht with }⟩
  | clearOps =>
      exact ⟨h.numbered, h.buffer.step .clearOps, h.frames, fun t ht => { h.tiles t ht with }⟩

theorem Consistent.run (h : s.Consistent) (commands : List (SessionCommand ι)) :
    (s.run commands).Consistent := by
  induction commands generalizing s with
  | nil => exact h
  | cons command commands ih => exact ih (h.step command)

theorem start_consistent (settings : ι → Settings) (palettes : ι → Palette)
    (counter : GenerationCounter) {layout : Layout} {tileSize : Nat} {fb : FrameBuffer}
    (hcreate : FrameBuffer.create layout tileSize = .ok fb) :
    (start settings palettes counter fb).Consistent := by
  have hfb := FrameBuffer.create_wellFormed hcreate
  unfold FrameBuffer.create at hcreate
  split at hcreate
  · cases hcreate
  · cases hcreate
    refine ⟨Studio.run_fresh_numbered settings palettes counter [], hfb, rfl, ?_⟩
    intro t ht
    obtain ⟨r, _, rfl⟩ := List.mem_map.mp (List.mem_toArray.mp ht)
    exact .of_dropped rfl rfl SessionEvent.latest_nil

theorem step_settings (s : Session ι) (command : SessionCommand ι) (i : ι) :
    ((s.step command).studio.renderers i).settings = (s.studio.renderers i).settings := by
  cases command with
  | renderer command => exact s.studio.step_settings command i
  | render i order =>
      unfold step
      dsimp only
      split <;> rfl
  | _ => rfl

theorem run_settings (s : Session ι) (commands : List (SessionCommand ι)) (i : ι) :
    ((s.run commands).studio.renderers i).settings = (s.studio.renderers i).settings := by
  induction commands generalizing s with
  | nil => rfl
  | cons command commands ih => exact (ih _).trans (s.step_settings command i)

/-- Rendering a frame in a session fails if the renderer has not committed, and then changes
nothing. Otherwise every tile has made as many passes as frames of the same commit have been
rendered since a frame of another commit or the loss of all samples, and has taken the renderer's
samples in each. The frame counter counts all frames of the session. -/
theorem run_start_counters (settings : ι → Settings) (palettes : ι → Palette)
    (counter : GenerationCounter) {layout : Layout} {tileSize : Nat} {fb : FrameBuffer}
    (hcreate : FrameBuffer.create layout tileSize = .ok fb) (commands : List (SessionCommand ι))
    {s : Session ι} (hs : (start settings palettes counter fb).run commands = s) (i : ι)
    (order : TileOrder) :
    ((s.studio.renderers i).generation? = none ∧
      (s.studio.renderers i).renderFrame order.places s.buffer =
        .error (.notCommitted Renderer.typeName) ∧
      s.step (.render i order) = s) ∨
    ∃ g after events k, (s.studio.renderers i).generation? = some g ∧
      (s.studio.renderers i).renderFrame order.places s.buffer = .ok after ∧
      events = s.events ++ [.rendered (some g)] ∧
      s.step (.render i order) = { s with buffer := after, events } ∧
      k = SessionEvent.latest (some g) events ∧
      (∀ t ∈ after.tiles, t.passes = k ∧
        t.samples = k * max (settings i).samplesPerPixel.toNat 1) ∧
      after.stats.samples = k * max (settings i).samplesPerPixel.toNat 1 ∧
      after.stats.frame = events.countP SessionEvent.isRendered := by
  have h : s.Consistent := hs ▸ (start_consistent settings palettes counter hcreate).run commands
  cases hcommitted : (s.studio.renderers i).committed with
  | none =>
      refine .inl ⟨?_, Renderer.renderFrame_of_none hcommitted _ _,
        step_render_of_none hcommitted order⟩
      rw [Renderer.generation?, hcommitted, Option.map_none]
  | some c =>
      have hshown : (s.studio.renderers i).generation? = some c.generation := by
        rw [Renderer.generation?, hcommitted, Option.map_some]
      have hsamples : s.samplesOf i = max (settings i).samplesPerPixel.toNat 1 := by
        rw [samplesOf, ← hs, run_settings]
        rfl
      have hstep := step_render hcommitted h.buffer order
      have hafter := h.step (.render i order)
      rw [hstep] at hafter
      obtain ⟨htiles, hleast⟩ := hafter.counters hshown rfl rfl
      rw [← hsamples]
      exact .inr ⟨c.generation, _, _, _, hshown,
        h.buffer.renderFrame_eq hcommitted (order.complete _), rfl, hstep, rfl, htiles, hleast,
        hafter.frames⟩

theorem run_start_counters_two_renderers :
    ∃ (fb : FrameBuffer) (s : Session Bool) (after : FrameBuffer),
      FrameBuffer.create ⟨3, 2, .rgba32f, .colorOnly⟩ 2 = .ok fb ∧
      s.events = [.dropped, .rendered (some 1), .dropped, .rendered (some 1), .rendered (some 2)] ∧
      (s.studio.renderers false).renderFrame FrameBuffer.gridOrder s.buffer = .ok after ∧
      (∀ t ∈ after.tiles, t.passes = 2 ∧ t.samples = 10) ∧
      after.stats.samples = 10 ∧ after.stats.frame = 4 := by
  let settings (i : Bool) : Settings :=
    { Settings.default with samplesPerPixel := if i then 0 else 5 }
  let setUp (i : Bool) : List (SessionCommand Bool) :=
    [.renderer (.setParam i "world" (.world (World.commit .empty).2)),
      .renderer (.setParam i "camera" (.camera .default)), .renderer (.commit i)]
  let fb : FrameBuffer := .blank ⟨3, 2, .rgba32f, .colorOnly⟩ 2
  let commands : List (SessionCommand Bool) := .render true .grid :: setUp true ++ setUp false ++
    [.resize 5 4, .resize 5 4, .setFormat .rgba32f, .resize 0 4, .render true .center,
      .resetAccumulation, .render true .grid, .render false .center]
  obtain ⟨s, hs⟩ : ∃ s, (start settings (fun _ => .empty) .first fb).run commands = s := ⟨_, rfl⟩
  have hcreate : FrameBuffer.create ⟨3, 2, .rgba32f, .colorOnly⟩ 2 = .ok fb := rfl
  have hevents : s.events =
      [.dropped, .rendered (some 1), .dropped, .rendered (some 1), .rendered (some 2)] := by
    rw [← hs]
    decide +kernel
  have hgeneration : (s.studio.renderers false).generation? = some 2 := by
    rw [← hs]
    rfl
  rcases run_start_counters settings (fun _ => .empty) .first hcreate commands hs false .grid with
    ⟨hnone, _⟩ | ⟨g, after, events, k, hg, hrender, hlast, _, hk, htiles, hsamples, hframe⟩
  · rw [hgeneration] at hnone
    cases hnone
  · cases hgeneration.symm.trans hg
    rw [hevents] at hlast
    rw [hlast] at hk hframe
    obtain rfl : k = 2 := hk
    exact ⟨fb, s, after, hcreate, hevents, hrender, htiles, hsamples, hframe⟩

end Session

end TileTracer
