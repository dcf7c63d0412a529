import Mathlib.Data.List.Induction
import TileTracer.Proofs.CheckedWords
import TileTracer.Proofs.TileIndependence

namespace TileTracer

inductive RendererCommand (ι : Type) where
  | setParam (i : ι) (key : String) (value : Param)
  | eraseParam (i : ι) (key : String)
  | commit (i : ι)
  | createJob (i : ι) (fb : FrameBuffer)

inductive RendererAnswer where
  | done
  | refused (cause : RenderError)
  /-- The generation that the renderer shows after the commit. -/
  | committed (generation : Option Nat)
  | job (job : Job)

namespace RendererAnswer

def ofJob : Except RenderError Job → RendererAnswer
  | .ok made => .job made
  | .error cause => .refused cause

def generation? : RendererAnswer → Option Nat
  | committed generation => generation
  | _ => none

theorem generation?_ofJob (result : Except RenderError Job) :
    (ofJob result).generation? = none := by
  cases result <;> rfl

end RendererAnswer

theorem Renderer.commit_of_ok {r : Renderer} {binding : World × Camera}
    (hbinding : resolveBinding r.params typeName = .ok binding) (counter : GenerationCounter) :
    r.commit counter =
      .ok ({ r with committed := some ⟨binding.1, binding.2, counter.next⟩ },
        ⟨counter.next + 1⟩) := by
  rw [commit, hbinding]
  rfl

theorem Renderer.commit_of_error {r : Renderer} {e : RenderError}
    (hbinding : resolveBinding r.params typeName = .error e) (counter : GenerationCounter) :
    r.commit counter = .error e := by
  rw [commit, hbinding]
  rfl

/-- The job for a frame of a layout that a renderer makes when this is what it has committed. -/
def Commitment.jobFor (settings : Settings) (layout : Layout) :
    Option Commitment → Except RenderError Job
  | none => .error (.notCommitted Renderer.typeName)
  | some c => .ok (c.job settings layout)

theorem Renderer.createJob_eq (r : Renderer) (fb : FrameBuffer) :
    r.createJob fb = Commitment.jobFor r.settings fb.layout r.committed := by
  cases hcommitted : r.committed with
  | none => simp only [createJob, hcommitted, Commitment.jobFor]
  | some c => exact createJob_of_committed hcommitted fb

structure Studio (ι : Type) where
  renderers : ι → Renderer
  counter : GenerationCounter

namespace Studio

variable {ι : Type} [DecidableEq ι]

/-- Renderers without parameters and commits, and a counter in any state. -/
def fresh (settings : ι → Settings) (palettes : ι → Palette) (counter : GenerationCounter) :
    Studio ι where
  renderers i := .create (settings i) (palettes i)
  counter

def replace (s : Studio ι) (i : ι) (r : Renderer) : Studio ι :=
  { s with renderers := Function.update s.renderers i r }

/-- A commit that fails changes nothing. -/
def step (s : Studio ι) : RendererCommand ι → Studio ι
  | .setParam i key value => s.replace i ((s.renderers i).setParam key value)
  | .eraseParam i key => s.replace i ((s.renderers i).eraseParam key)
  | .commit i => match (s.renderers i).commit s.counter with
    | .ok (r, counter) => { s.replace i r with counter }
    | .error _ => s
  | .createJob _ _ => s

def answer (s : Studio ι) : RendererCommand ι → RendererAnswer
  | .commit i => match (s.renderers i).commit s.counter with
    | .ok (r, _) => .committed r.generation?
    | .error cause => .refused cause
  | .createJob i fb => .ofJob ((s.renderers i).createJob fb)
  | _ => .done

def run (s : Studio ι) (commands : List (RendererCommand ι)) : Studio ι := commands.foldl step s

def answers : Studio ι → List (RendererCommand ι) → List RendererAnswer
  | _, [] => []
  | s, command :: commands => s.answer command :: answers (s.step command) commands

theorem run_concat (s : Studio ι) (commands : List (RendererCommand ι))
    (command : RendererCommand ι) :
    s.run (commands ++ [command]) = (s.run commands).step command := by
  simp [run]

theorem answers_append (s : Studio ι) (first second : List (RendererCommand ι)) :
    s.answers (first ++ second) = s.answers first ++ (s.run first).answers second := by
  induction first generalizing s with
  | nil => rfl
  | cons command first ih => exact congrArg (s.answer command :: ·) (ih _)

theorem length_answers (s : Studio ι) (commands : List (RendererCommand ι)) :
    (s.answers commands).length = commands.length := by
  induction commands generalizing s with
  | nil => rfl
  | cons command commands ih => exact congrArg (· + 1) (ih _)

/-- Later commands leave the answers to earlier ones as they are. -/
theorem getElem?_answers (s : Studio ι) (before : List (RendererCommand ι))
    (command : RendererCommand ι) (after : List (RendererCommand ι)) :
    (s.answers (before ++ command :: after))[before.length]? =
      some ((s.run before).answer command) := by
  rw [answers_append, ← length_answers s before, List.getElem?_append_right (Nat.le_refl _),
    Nat.sub_self]
  rfl

/-! ### Commits -/

/-- What a renderer is left with by each command: only what it is told itself counts. -/
def paramsStep (i : ι) (params : Params) : RendererCommand ι → Params
  | .setParam j key value => if j = i then params.set key value else params
  | .eraseParam j key => if j = i then params.erase key else params
  | _ => params

def paramsAfter (i : ι) (history : List (RendererCommand ι)) : Params :=
  history.foldl (paramsStep i) .empty

def bindingAfter (i : ι) (history : List (RendererCommand ι)) :
    Except RenderError (World × Camera) :=
  resolveBinding (paramsAfter i history) Renderer.typeName

def NoneBinds (i : ι) (before after : List (RendererCommand ι)) : Prop :=
  ∀ passed rest, after = passed ++ .commit i :: rest →
    ∃ e, bindingAfter i (before ++ passed) = .error e

/-- What the last successful commit of the renderer has bound, if there was one. -/
def LastCommit (start : Studio ι) (i : ι) (commands : List (RendererCommand ι)) :
    Option Commitment → Prop
  | none => NoneBinds i [] commands
  | some c => ∃ before after, commands = before ++ .commit i :: after ∧
      bindingAfter i before = .ok (c.world, c.camera) ∧
      (start.run before).answer (.commit i) = .committed (some c.generation) ∧
      NoneBinds i (before ++ [.commit i]) after

theorem NoneBinds.concat {i : ι} {before after : List (RendererCommand ι)}
    {command : RendererCommand ι} (h : NoneBinds i before after)
    (hlast : command = .commit i → ∃ e, bindingAfter i (before ++ after) = .error e) :
    NoneBinds i before (after ++ [command]) := by
  rintro passed rest hsplit
  rcases List.eq_nil_or_concat rest with rfl | ⟨rest, last, rfl⟩
  · obtain ⟨rfl, hcommand⟩ := List.append_inj' hsplit rfl
    exact hlast (List.singleton_inj.mp hcommand)
  · rw [List.concat_eq_append, ← List.cons_append, ← List.append_assoc] at hsplit
    exact h passed rest (List.append_inj' hsplit rfl).1

theorem LastCommit.concat {start : Studio ι} {i : ι} {commands : List (RendererCommand ι)}
    {command : RendererCommand ι} {c : Option Commitment} (h : start.LastCommit i commands c)
    (hlast : command = .commit i → ∃ e, bindingAfter i commands = .error e) :
    start.LastCommit i (commands ++ [command]) c := by
  cases c with
  | none => exact NoneBinds.concat h hlast
  | some c =>
      obtain ⟨before, after, rfl, hbinding, hgeneration, hnone⟩ := h
      refine ⟨before, after ++ [command], by simp, hbinding, hgeneration, hnone.concat ?_⟩
      simpa using hlast

/-- A command either binds nothing, so that renderers change in their parameters alone, or it is a
commit that succeeds. -/
theorem step_cases (s : Studio ι) (command : RendererCommand ι) :
    ((∀ i, (s.step command).renderers i =
        { s.renderers i with params := paramsStep i (s.renderers i).params command }) ∧
      (s.step command).counter = s.counter ∧
      ∀ i, command = .commit i →
        ∃ e, resolveBinding (s.renderers i).params Renderer.typeName = .error e) ∨
    ∃ i binding, command = .commit i ∧
      resolveBinding (s.renderers i).params Renderer.typeName = .ok binding ∧
      s.step command =
        { s.replace i { s.renderers i with
            committed := some ⟨binding.1, binding.2, s.counter.next⟩ } with
          counter := ⟨s.counter.next + 1⟩ } := by
  have hreplace (j : ι) (change : Params → Params) (i : ι) :
      (s.replace j { s.renderers j with params := change (s.renderers j).params }).renderers i =
        { s.renderers i with
          params := if j = i then change (s.renderers i).params else (s.renderers i).params } := by
    by_cases hij : i = j
    · subst hij
      simp [replace]
    · simp [replace, hij, Ne.symm hij]
  cases command with
  | setParam j key value => exact .inl ⟨hreplace j (·.set key value), rfl, nofun⟩
  | eraseParam j key => exact .inl ⟨hreplace j (·.erase key), rfl, nofun⟩
  | createJob j fb => exact .inl ⟨fun i => rfl, rfl, nofun⟩
  | commit j =>
      cases hbinding : resolveBinding (s.renderers j).params Renderer.typeName with
      | error e =>
          have hsame : s.step (.commit j) = s := by
            simp only [step, Renderer.commit_of_error hbinding]
          rw [hsame]
          refine .inl ⟨fun i => rfl, rfl, ?_⟩
          rintro i ⟨⟩
          exact ⟨e, hbinding⟩
      | ok binding =>
          refine .inr ⟨j, binding, rfl, hbinding, ?_⟩
          simp only [step, Renderer.commit_of_ok hbinding]

theorem step_renderers (s : Studio ι) (command : RendererCommand ι) (i : ι) :
    ∃ c, (s.step command).renderers i =
        { s.renderers i with
          params := paramsStep i (s.renderers i).params command, committed := c } ∧
      (c = (s.renderers i).committed ∨ c.map (·.generation) = some s.counter.next) := by
  rcases s.step_cases command with ⟨hrenderers, _⟩ | ⟨j, binding, rfl, _, hstep⟩
  · exact ⟨_, hrenderers i, .inl rfl⟩
  · rw [hstep]
    by_cases hij : i = j
    · subst hij
      exact ⟨some ⟨binding.1, binding.2, s.counter.next⟩, by simp [replace, paramsStep], .inr rfl⟩
    · exact ⟨(s.renderers i).committed, by simp [replace, hij, paramsStep], .inl rfl⟩

theorem step_settings (s : Studio ι) (command : RendererCommand ι) (i : ι) :
    ((s.step command).renderers i).settings = (s.renderers i).settings := by
  obtain ⟨c, hc, _⟩ := s.step_renderers command i
  rw [hc]

theorem step_params (s : Studio ι) (command : RendererCommand ι) (i : ι) :
    ((s.step command).renderers i).params = paramsStep i (s.renderers i).params command := by
  obtain ⟨c, hc, _⟩ := s.step_renderers command i
  rw [hc]

theorem step_generation? (s : Studio ι) (command : RendererCommand ι) (i : ι) :
    ((s.step command).renderers i).generation? = (s.renderers i).generation? ∨
      ((s.step command).renderers i).generation? = some s.counter.next := by
  obtain ⟨c, hc, hcommitted⟩ := s.step_renderers command i
  rw [hc]
  exact hcommitted.imp_left (congrArg (Option.map Commitment.generation))

theorem next_le_step (s : Studio ι) (command : RendererCommand ι) :
    s.counter.next ≤ (s.step command).counter.next := by
  rcases s.step_cases command with ⟨_, hcounter, _⟩ | ⟨j, binding, _, _, hstep⟩
  · exact Nat.le_of_eq (congrArg GenerationCounter.next hcounter.symm)
  · rw [hstep]
    exact Nat.le_succ _

theorem step_next_le (s : Studio ι) (command : RendererCommand ι) :
    (s.step command).counter.next ≤ s.counter.next + 1 := by
  rcases s.step_cases command with ⟨_, hcounter, _⟩ | ⟨j, binding, _, _, hstep⟩
  · rw [hcounter]
    exact Nat.le_succ _
  · rw [hstep]

theorem run_next_le (s : Studio ι) (commands : List (RendererCommand ι)) :
    (s.run commands).counter.next ≤ s.counter.next + commands.length := by
  induction commands using List.reverseRecOn with
  | nil => exact le_rfl
  | append_singleton commands command ih =>
      rw [run_concat, List.length_append, List.length_singleton]
      exact (step_next_le _ command).trans (Nat.succ_le_succ ih)

/-- In any run that can be carried out, the counter has a successor in 64 bits. -/
theorem successor64?_run (s : Studio ι) {commands : List (RendererCommand ι)}
    (h : s.counter.next + commands.length + 1 < 2 ^ 64) :
    Words.successor64? (s.run commands).counter.next =
      some ((s.run commands).counter.next + 1) :=
  Words.successor64?_eq (Nat.lt_of_le_of_lt (Nat.succ_le_succ (s.run_next_le commands)) h)

theorem run_settings (s : Studio ι) (commands : List (RendererCommand ι)) (i : ι) :
    ((s.run commands).renderers i).settings = (s.renderers i).settings := by
  induction commands generalizing s with
  | nil => rfl
  | cons command commands ih => exact (ih _).trans (s.step_settings command i)

/-! ### Generations -/

/-- Every generation in use has been handed out, and to one renderer only. -/
structure Numbered (s : Studio ι) : Prop where
  lt_next : ∀ i g, (s.renderers i).generation? = some g → g < s.counter.next
  inj : ∀ i j g, (s.renderers i).generation? = some g → (s.renderers j).generation? = some g → i = j

theorem Numbered.step {s : Studio ι} (h : s.Numbered) (command : RendererCommand ι) :
    (s.step command).Numbered := by
  rcases s.step_cases command with ⟨hrenderers, hcounter, _⟩ | ⟨j, binding, _, _, hstep⟩
  · have hgeneration (i : ι) :
        ((s.step command).renderers i).generation? = (s.renderers i).generation? := by
      rw [hrenderers]
      rfl
    constructor
    · simpa only [hgeneration, hcounter] using h.lt_next
    · simpa only [hgeneration] using h.inj
  · have hnew : ((s.step command).renderers j).generation? = some s.counter.next := by
      simp [hstep, replace, Renderer.generation?]
    have hold (i : ι) (hij : i ≠ j) :
        ((s.step command).renderers i).generation? = (s.renderers i).generation? := by
      simp [hstep, replace, hij]
    have hnext : (s.step command).counter.next = s.counter.next + 1 := by rw [hstep]
    -- The new generation lies above all in use, so that no other renderer has it.
    constructor
    · intro i g hg
      rw [hnext]
      by_cases hij : i = j
      · rw [hij, hnew] at hg
        exact Option.some.inj hg ▸ Nat.lt_succ_self _
      · rw [hold i hij] at hg
        exact Nat.lt_succ_of_lt (h.lt_next i g hg)
    · intro i k g hi hk
      by_cases hij : i = j <;> by_cases hkj : k = j
      · rw [hij, hkj]
      · rw [hij, hnew] at hi
        rw [hold k hkj, ← Option.some.inj hi] at hk
        exact absurd (h.lt_next k _ hk) (Nat.lt_irrefl _)
      · rw [hkj, hnew] at hk
        rw [hold i hij, ← Option.some.inj hk] at hi
        exact absurd (h.lt_next i _ hi) (Nat.lt_irrefl _)
      · rw [hold i hij] at hi
        rw [hold k hkj] at hk
        exact h.inj i k g hi hk

theorem generations_answers (s : Studio ι) (commands : List (RendererCommand ι)) :
    ∃ n, (s.answers commands).filterMap RendererAnswer.generation? =
      List.range' s.counter.next n := by
  induction commands generalizing s with
  | nil => exact ⟨0, rfl⟩
  | cons command commands ih =>
      obtain ⟨n, hn⟩ := ih (s.step command)
      rw [answers, List.filterMap_cons]
      rcases s.step_cases command with ⟨_, hcounter, herror⟩ | ⟨i, binding, rfl, hbinding, hstep⟩
      · have hnone : (s.answer command).generation? = none := by
          cases command with
          | commit i =>
              obtain ⟨e, he⟩ := herror i rfl
              simp only [answer, Renderer.commit_of_error he, RendererAnswer.generation?]
          | createJob i fb => exact RendererAnswer.generation?_ofJob _
          | _ => rfl
        rw [hnone, hn, hcounter]
        exact ⟨n, rfl⟩
      · have hsome : (s.answer (.commit i)).generation? = some s.counter.next := by
          simp only [answer, Renderer.commit_of_ok hbinding, RendererAnswer.generation?,
            Renderer.generation?, Option.map_some]
        rw [hsome, hn, hstep]
        exact ⟨n + 1, List.range'_succ.symm⟩

section Fresh

variable (settings : ι → Settings) (palettes : ι → Palette) (counter : GenerationCounter)
  (commands : List (RendererCommand ι)) (i : ι)

theorem run_fresh_params :
    (((fresh settings palettes counter).run commands).renderers i).params =
      paramsAfter i commands := by
  induction commands using List.reverseRecOn with
  | nil => rfl
  | append_singleton commands command ih =>
      rw [run_concat, step_params, ih, paramsAfter, paramsAfter, List.foldl_concat]

theorem run_fresh_numbered : ((fresh settings palettes counter).run commands).Numbered := by
  induction commands using List.reverseRecOn with
  | nil => constructor <;> simp [run, fresh, Renderer.create, Renderer.generation?]
  | append_singleton commands command ih =>
      rw [run_concat]
      exact ih.step command

theorem run_fresh_lastCommit :
    (fresh settings palettes counter).LastCommit i commands
      (((fresh settings palettes counter).run commands).renderers i).committed := by
  induction commands using List.reverseRecOn with
  | nil =>
      intro passed rest hsplit
      simp at hsplit
  | append_singleton commands command ih =>
      rw [run_concat]
      rcases step_cases ((fresh settings palettes counter).run commands) command with
        ⟨hrenderers, _, herror⟩ | ⟨j, binding, rfl, hbinding, hstep⟩
      · rw [hrenderers]
        refine ih.concat fun hcommand => ?_
        rw [bindingAfter, ← run_fresh_params settings palettes counter]
        exact herror i hcommand
      · rw [hstep]
        by_cases hij : i = j
        · subst hij
          simp only [replace, Function.update_self]
          refine ⟨commands, [], rfl, ?_, ?_, ?_⟩
          · rwa [run_fresh_params] at hbinding
          · simp only [answer, Renderer.commit_of_ok hbinding]
            rfl
          · intro passed rest hsplit
            simp at hsplit
        · simp only [replace, Function.update_of_ne hij]
          refine ih.concat ?_
          rintro ⟨⟩
          exact absurd rfl hij

/-- Whatever is done to new renderers: each shows what its last successful commit has bound, a
commit that fails changes nothing, generations are handed out in increasing order, and a job is made
from the last successful commit before it, whatever is done later. -/
theorem run_fresh_snapshots :
    ∃ start after, start = fresh settings palettes counter ∧ after = start.run commands ∧
      (∀ i, ∃ c, start.LastCommit i commands c ∧
        (after.renderers i).world? = c.map (·.world) ∧
        (after.renderers i).camera? = c.map (·.camera) ∧
        (after.renderers i).generation? = c.map (·.generation) ∧
        ∀ fb, (after.renderers i).createJob fb = Commitment.jobFor (settings i) fb.layout c ∧
          ((after.renderers i).createJob fb = .error (.notCommitted Renderer.typeName) ↔
            NoneBinds i [] commands)) ∧
      (∀ i e, (after.renderers i).commit after.counter = .error e →
        after.step (.commit i) = after) ∧
      ((start.answers commands).filterMap RendererAnswer.generation?).Pairwise (· < ·) ∧
      ∀ before i fb rest, commands = before ++ .createJob i fb :: rest →
        ∃ c, start.LastCommit i before c ∧
          (start.answers commands)[before.length]? =
            some (.ofJob (Commitment.jobFor (settings i) fb.layout c)) := by
  have hjob (history : List (RendererCommand ι)) (i : ι) (fb : FrameBuffer) :
      (((fresh settings palettes counter).run history).renderers i).createJob fb =
        Commitment.jobFor (settings i) fb.layout
          (((fresh settings palettes counter).run history).renderers i).committed := by
    rw [Renderer.createJob_eq, run_settings]
    rfl
  refine ⟨_, _, rfl, rfl, ?_, ?_, ?_, ?_⟩
  · intro i
    have hlast := run_fresh_lastCommit settings palettes counter commands i
    refine ⟨_, hlast, rfl, rfl, rfl, fun fb => ⟨hjob commands i fb, ?_⟩⟩
    rw [hjob]
    revert hlast
    generalize (((fresh settings palettes counter).run commands).renderers i).committed = c
    intro hlast
    cases c with
    | none => exact iff_of_true rfl hlast
    | some c =>
        obtain ⟨before, rest, rfl, hbinding, _⟩ := hlast
        refine iff_of_false nofun fun hnone => ?_
        obtain ⟨e, he⟩ := hnone before rest rfl
        rw [List.nil_append, hbinding] at he
        cases he
  · intro i e he
    simp only [step, he]
  · obtain ⟨n, hn⟩ := generations_answers (fresh settings palettes counter) commands
    rw [hn]
    exact List.pairwise_lt_range'
  · rintro before i fb rest rfl
    refine ⟨_, run_fresh_lastCommit settings palettes counter before i, ?_⟩
    rw [getElem?_answers, answer, hjob]

end Fresh

theorem run_fresh_snapshots_recommit :
    ∃ (start : Studio Bool) (fb : FrameBuffer) (before rest : List (RendererCommand Bool))
      (c : Commitment),
      start = fresh (fun _ => .default) (fun _ => .empty) .first ∧
      start.LastCommit false before (some c) ∧
      (start.answers (before ++ .createJob false fb :: rest))[before.length]? =
        some (.job (c.job .default fb.layout)) ∧
      (start.answers (before ++ .createJob false fb :: rest)).filterMap
        RendererAnswer.generation? = [1, 2, 3] ∧
      ((start.run (before ++ .createJob false fb :: rest)).renderers false).generation? =
        some 3 := by
  let start : Studio Bool := fresh (fun _ => .default) (fun _ => .empty) .first
  let fb : FrameBuffer := .blank ⟨3, 2, .srgba, .colorOnly⟩ 2
  let world : World := (World.commit .empty).2
  let before : List (RendererCommand Bool) :=
    [.createJob false fb, .setParam false "model" (.world world),
      .setParam false "camera" (.camera .default), .commit false]
  let rest : List (RendererCommand Bool) :=
    [.commit true, .setParam true "world" (.world world),
      .setParam true "camera" (.camera .default), .commit true, .eraseParam false "camera",
      .commit false, .setParam false "camera" (.camera .default), .commit false]
  obtain ⟨_, _, hstart, _, _, _, _, hjobs⟩ := run_fresh_snapshots (fun _ => .default)
    (fun _ => .empty) .first (before ++ .createJob false fb :: rest)
  obtain ⟨c, hlast, hjob⟩ := hjobs before false fb rest rfl
  rw [hstart] at hlast hjob
  have hbinding : bindingAfter false (before.take 3) = .ok (world, .default) := rfl
  have hgenerations : (start.answers (before ++ .createJob false fb :: rest)).filterMap
      RendererAnswer.generation? = [1, 2, 3] := by decide +kernel
  have hlatest : ((start.run (before ++ .createJob false fb :: rest)).renderers false).generation? =
      some 3 := by decide +kernel
  cases c with
  | none =>
      obtain ⟨e, he⟩ := hlast (before.take 3) [] rfl
      rw [List.nil_append, hbinding] at he
      cases he
  | some c => exact ⟨start, fb, before, rest, c, rfl, hlast, hjob, hgenerations, hlatest⟩

end Studio

end TileTracer
