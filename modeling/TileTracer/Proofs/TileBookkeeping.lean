import Mathlib.Algebra.GroupWithZero.Nat
import Mathlib.Data.List.Induction
import TileTracer.Proofs.CheckedTiles

namespace TileTracer

open TileTracer.ArrayWrites

namespace TileCommand

def begun? : TileCommand → Option Nat
  | beginPass generation => some generation
  | _ => none

def ended? : TileCommand → Option Nat
  | endPass samples => some samples
  | _ => none

def recorded? (i : Nat) : TileCommand → Option PixelRecord
  | record j found => if j = i then some found else none
  | _ => none

/-- The generation of the last pass that was begun; 0 before the first. -/
def lastBegun (history : List TileCommand) : Nat := (history.filterMap begun?).getLast?.getD 0

/-- The samples that each pass that was ended has added to every pixel. -/
def ended (history : List TileCommand) : List Nat := history.filterMap ended?

def recorded (i : Nat) (history : List TileCommand) : List PixelRecord :=
  history.filterMap (recorded? i)

/-- Whether a command that follows a history drops the samples of the tile. -/
def Drops (history : List TileCommand) : TileCommand → Prop
  | beginPass generation => generation ≠ lastBegun history
  | reset => True
  | _ => False

/-- A history cut where the samples were last dropped. -/
structure LastDrop (before since : List TileCommand) : Prop where
  dropped : before = [] ∨
    ∃ earlier last, before = earlier ++ [last] ∧ Drops earlier last
  kept : ∀ first next rest, since = first ++ next :: rest → ¬Drops (before ++ first) next

theorem LastDrop.start : LastDrop [] [] where
  dropped := .inl rfl
  kept := by simp

theorem LastDrop.of_drops {history : List TileCommand} {command : TileCommand}
    (h : Drops history command) : LastDrop (history ++ [command]) [] where
  dropped := .inr ⟨history, command, rfl, h⟩
  kept := by simp

theorem LastDrop.concat {before since : List TileCommand} {command : TileCommand}
    (h : LastDrop before since) (hkeeps : ¬Drops (before ++ since) command) :
    LastDrop before (since ++ [command]) where
  dropped := h.dropped
  kept := by
    rintro first next rest hsplit
    rcases List.eq_nil_or_concat rest with rfl | ⟨rest, last, rfl⟩
    · obtain ⟨rfl, hnext⟩ := List.append_inj' hsplit rfl
      exact List.singleton_inj.mp hnext ▸ hkeeps
    · rw [List.concat_eq_append, ← List.cons_append, ← List.append_assoc] at hsplit
      exact h.kept first next rest (List.append_inj' hsplit rfl).1

theorem lastBegun_concat (history : List TileCommand) (command : TileCommand) :
    lastBegun (history ++ [command]) = command.begun?.getD (lastBegun history) := by
  rw [lastBegun, List.filterMap_append]
  cases command <;> simp [begun?, lastBegun]

theorem ended_concat (history : List TileCommand) (command : TileCommand) :
    ended (history ++ [command]) = ended history ++ command.ended?.toList := by
  rw [ended, List.filterMap_append]
  cases command <;> rfl

theorem recorded_concat (i : Nat) (history : List TileCommand) (command : TileCommand) :
    recorded i (history ++ [command]) = recorded i history ++ (command.recorded? i).toList := by
  rw [recorded, List.filterMap_append, List.filterMap_cons]
  cases command.recorded? i <;> rfl

theorem recorded_concat_of_unrecorded {i : Nat} {command : TileCommand}
    (hnone : command.recorded? i = none) (history : List TileCommand) :
    recorded i (history ++ [command]) = recorded i history := by
  rw [recorded_concat, hnone, Option.toList_none, List.append_nil]

end TileCommand

def PixelRecord.sumOf (records : List PixelRecord) : Vec4 Float32 :=
  records.foldl (fun sum found => sum + found.sum) .zero

def PixelRecord.lastOf {β : Type} (part : PixelRecord → β) (absent : β)
    (records : List PixelRecord) : β :=
  (records.getLast?.map part).getD absent

namespace Tile

open TileCommand (Drops LastDrop lastBegun ended recorded recorded_concat
  recorded_concat_of_unrecorded)
open PixelRecord (sumOf lastOf)

def run (t : Tile) (commands : List TileCommand) : Tile := commands.foldl step t

def run? (t : Tile) (commands : List TileCommand) : Option Tile := commands.foldlM step? t

theorem run?_eq {t : Tile} {commands : List TileCommand}
    (h : ∀ done, done <+: commands → (t.run done).CountersFit) :
    t.run? commands = some (t.run commands) :=
  foldlM_of_prefixes (I := fun _ => True) (fun _ _ _ hfits => hfits.step?_eq)
    (fun _ _ _ => trivial) trivial h

/-- The hypothesis of `run?_eq` asks for no more than is needed. -/
theorem run?_isSome_iff {t : Tile} (ht : t.CountersFit) {commands : List TileCommand} :
    (t.run? commands).isSome = true ↔
      ∀ done, done <+: commands → (t.run done).CountersFit :=
  foldlM_isSome_iff (I := fun _ => True) (fun _ command _ hfits => hfits.step?_cases command)
    (fun _ _ _ => trivial) trivial ht

/-- The counters and sums of the tile are those of some commands. -/
structure Accumulates (t : Tile) (r : Region) (since : List TileCommand) : Prop where
  samples : t.samples = (ended since).sum
  passes : t.passes = (ended since).length
  sums : ∀ i < r.pixelCount, t.sums[i]? = some (sumOf (recorded i since))

/-- Beside the averages, the tile shows for each pixel what was recorded last. -/
structure ShowsLast (t : Tile) (r : Region) (history : List TileCommand) : Prop where
  depth : ∀ i < r.pixelCount,
    t.depth[i]? = some (lastOf (·.depth) Scalar.infinity (recorded i history))
  albedo : ∀ i < r.pixelCount, t.albedo[i]? = some (lastOf (·.albedo) .zero (recorded i history))
  normal : ∀ i < r.pixelCount, t.normal[i]? = some (lastOf (·.normal) .zero (recorded i history))

theorem run_concat (t : Tile) (history : List TileCommand) (command : TileCommand) :
    t.run (history ++ [command]) = (t.run history).step command := by
  simp [run]

variable {t : Tile} {r : Region}

theorem Fits.record_of_le (h : t.Fits r) {i : Nat} (hi : r.pixelCount ≤ i) (found : PixelRecord) :
    t.record i found = t := by
  have hwrite {β : Type} {a : Array β} (hsize : a.size = r.pixelCount) (b : β) :
      a.setIfInBounds i b = a :=
    Array.setIfInBounds_eq_of_size_le (hsize ▸ hi)
  have hsums : t.sums.modify i (· + found.sum) = t.sums :=
    modify_eq_self (Array.getElem?_eq_none (h.sums ▸ hi)) _
  unfold Tile.record
  rw [hsums, hwrite h.depth, hwrite h.albedo, hwrite h.normal]

theorem Fits.record?_eq (h : t.Fits r) (i : Nat) (found : PixelRecord) :
    t.record? i found = if i < r.pixelCount then some (t.record i found) else none := by
  rw [record?, h.sums]

theorem Fits.step_record (h : t.Fits r) (i : Nat) (found : PixelRecord) :
    t.step (.record i found) = t.record i found := by
  rw [Tile.step, h.record?_eq]
  split
  · rfl
  · rename_i hi
    exact (h.record_of_le (Nat.le_of_not_lt hi) found).symm

theorem step_generation (t : Tile) (command : TileCommand) :
    (t.step command).generation = command.begun?.getD t.generation := by
  cases command with
  | beginPass g =>
      unfold step beginPass
      dsimp only
      split
      · rename_i hsame
        exact hsame
      · rfl
  | record i found =>
      unfold step record?
      dsimp only
      split <;> rfl
  | endPass samples => rw [step, endPass_eq]; rfl
  | reset => rfl

theorem run_generation (r : Region) (history : List TileCommand) :
    ((ofRegion r).run history).generation = lastBegun history := by
  induction history using List.reverseRecOn with
  | nil => rfl
  | append_singleton history command ih =>
      rw [run_concat, step_generation, TileCommand.lastBegun_concat, ih]

theorem Fits.run (h : t.Fits r) (history : List TileCommand) : (t.run history).Fits r := by
  induction history generalizing t with
  | nil => exact h
  | cons command history ih => exact ih (h.step command)

theorem ofRegion_accumulates (r : Region) : (ofRegion r).Accumulates r [] where
  samples := rfl
  passes := rfl
  sums := by
    intro i hi
    simp [ofRegion, hi, recorded, sumOf]

theorem Fits.reset_accumulates (h : t.Fits r) : t.reset.Accumulates r [] where
  samples := rfl
  passes := rfl
  sums := by
    intro i hi
    simp [Tile.reset, h.sums, hi, recorded, sumOf]

theorem Fits.step_drops (h : t.Fits r) {history : List TileCommand} {command : TileCommand}
    (hgeneration : t.generation = lastBegun history) (hdrops : Drops history command) :
    (t.step command).Accumulates r [] := by
  cases command with
  | beginPass g =>
      have hother : t.generation ≠ g := by
        rw [hgeneration]
        exact Ne.symm hdrops
      rw [Tile.step, Tile.beginPass, if_neg hother]
      exact { h.reset_accumulates with }
  | record i found => exact hdrops.elim
  | endPass samples => exact hdrops.elim
  | reset => exact h.reset_accumulates

theorem Accumulates.step {history since : List TileCommand} {command : TileCommand}
    (h : t.Accumulates r since) (hfits : t.Fits r)
    (hgeneration : t.generation = lastBegun history) (hkeeps : ¬Drops history command) :
    (t.step command).Accumulates r (since ++ [command]) := by
  cases command with
  | beginPass g =>
      -- A pass that drops nothing is one of the generation begun last, which the tile has.
      have hsame : t.generation = g := by
        rw [hgeneration]
        exact (not_not.mp hkeeps).symm
      rw [Tile.step, beginPass, if_pos hsame]
      constructor
      · rw [h.samples, TileCommand.ended_concat]
        simp [TileCommand.ended?]
      · rw [h.passes, TileCommand.ended_concat]
        simp [TileCommand.ended?]
      · intro i hi
        rw [h.sums i hi, recorded_concat_of_unrecorded rfl]
  | record j found =>
      rw [hfits.step_record]
      constructor
      · rw [TileCommand.ended_concat]
        simpa [TileCommand.ended?, record] using h.samples
      · rw [TileCommand.ended_concat]
        simpa [TileCommand.ended?, record] using h.passes
      · intro i hi
        rw [recorded_concat, record, Array.getElem?_modify, h.sums i hi]
        by_cases hji : j = i
        · simp [TileCommand.recorded?, hji, sumOf]
        · simp [TileCommand.recorded?, hji]
  | endPass samples =>
      rw [Tile.step, endPass_eq]
      constructor
      · rw [TileCommand.ended_concat]
        simp [TileCommand.ended?, h.samples]
      · rw [TileCommand.ended_concat]
        simp [TileCommand.ended?, h.passes]
      · intro i hi
        exact (h.sums i hi).trans (by rw [recorded_concat_of_unrecorded rfl])
  | reset => exact absurd trivial hkeeps

/-- The tile accumulates what a history holds since the samples were last dropped. -/
theorem run_accumulates (r : Region) (history : List TileCommand) :
    ∃ before since, history = before ++ since ∧ LastDrop before since ∧
      ((ofRegion r).run history).Accumulates r since := by
  induction history using List.reverseRecOn with
  | nil => exact ⟨[], [], rfl, .start, ofRegion_accumulates r⟩
  | append_singleton history command ih =>
      have hfits := (ofRegion_fits r).run history
      have hgeneration := run_generation r history
      rw [run_concat]
      -- The cut moves behind a command that drops the samples and else stays where it is.
      by_cases hdrops : Drops history command
      · exact ⟨history ++ [command], [], (List.append_nil _).symm, .of_drops hdrops,
          hfits.step_drops hgeneration hdrops⟩
      · obtain ⟨before, since, rfl, hlast, haccumulates⟩ := ih
        exact ⟨before, since ++ [command], List.append_assoc _ _ _, hlast.concat hdrops,
          haccumulates.step hfits hgeneration hdrops⟩

theorem getElem?_setIfInBounds_lastOf {β : Type} (part : PixelRecord → β) (absent : β)
    {history : List TileCommand} {a : Array β} {i : Nat}
    (h : a[i]? = some (lastOf part absent (recorded i history))) (j : Nat) (found : PixelRecord) :
    (a.setIfInBounds j (part found))[i]? =
      some (lastOf part absent (recorded i (history ++ [.record j found]))) := by
  rw [recorded_concat, Array.getElem?_setIfInBounds]
  by_cases hji : j = i
  · subst hji
    have hlt : j < a.size := (Array.getElem?_eq_some_iff.mp h).1
    simp [TileCommand.recorded?, lastOf, hlt]
  · simp [TileCommand.recorded?, hji, h]

theorem ShowsLast.of_unrecorded {u : Tile} {history : List TileCommand} {command : TileCommand}
    (h : t.ShowsLast r history) (hnone : ∀ i, command.recorded? i = none)
    (hdepth : u.depth = t.depth) (halbedo : u.albedo = t.albedo) (hnormal : u.normal = t.normal) :
    u.ShowsLast r (history ++ [command]) := by
  have hsame (i : Nat) : recorded i (history ++ [command]) = recorded i history :=
    recorded_concat_of_unrecorded (hnone i) history
  constructor
  · simpa only [hdepth, hsame] using h.depth
  · simpa only [halbedo, hsame] using h.albedo
  · simpa only [hnormal, hsame] using h.normal

theorem ShowsLast.step {history : List TileCommand} (h : t.ShowsLast r history) (hfits : t.Fits r)
    (command : TileCommand) : (t.step command).ShowsLast r (history ++ [command]) := by
  cases command with
  | beginPass g =>
      rw [Tile.step, beginPass]
      split
      · exact h.of_unrecorded (fun _ => rfl) rfl rfl rfl
      · exact h.of_unrecorded (fun _ => rfl) rfl rfl rfl
  | record j found =>
      rw [hfits.step_record]
      exact ⟨fun i hi => getElem?_setIfInBounds_lastOf (·.depth) _ (h.depth i hi) j found,
        fun i hi => getElem?_setIfInBounds_lastOf (·.albedo) _ (h.albedo i hi) j found,
        fun i hi => getElem?_setIfInBounds_lastOf (·.normal) _ (h.normal i hi) j found⟩
  | endPass samples =>
      rw [Tile.step, endPass_eq]
      exact h.of_unrecorded (fun _ => rfl) rfl rfl rfl
  | reset => exact h.of_unrecorded (fun _ => rfl) rfl rfl rfl

theorem run_showsLast (r : Region) (history : List TileCommand) :
    ((ofRegion r).run history).ShowsLast r history := by
  induction history using List.reverseRecOn with
  | nil => constructor <;> intro i hi <;> simp [run, ofRegion, hi, recorded, lastOf]
  | append_singleton history command ih =>
      rw [run_concat]
      exact ih.step ((ofRegion_fits r).run history) command

/-- Only the end of a pass refreshes the averages, and only if there are samples. -/
theorem step_color (t : Tile) (command : TileCommand) :
    (t.step command).color = t.color ∨
      ∃ samples, command = .endPass samples ∧ 0 < (t.step command).samples := by
  cases command with
  | beginPass g =>
      unfold step beginPass
      dsimp only
      split <;> exact .inl rfl
  | record i found =>
      unfold step record?
      dsimp only
      split <;> exact .inl rfl
  | endPass samples =>
      rw [step, endPass_eq]
      by_cases hzero : t.samples + samples = 0
      · exact .inl (if_pos hzero)
      · exact .inr ⟨samples, rfl, Nat.pos_of_ne_zero hzero⟩
  | reset => exact .inl rfl

theorem countersFit_of_ended (r : Region) {history : List TileCommand}
    (hsum : (ended history).sum < 2 ^ 32) (hlength : (ended history).length < 2 ^ 32)
    (done : List TileCommand) (hdone : done <+: history) :
    ((ofRegion r).run done).CountersFit := by
  obtain ⟨rest, rfl⟩ := hdone
  obtain ⟨before, since, rfl, -, haccumulates⟩ := run_accumulates r done
  have hended : ended (before ++ since ++ rest) = ended before ++ ended since ++ ended rest := by
    simp only [ended, List.filterMap_append]
  rw [hended, List.sum_append, List.sum_append] at hsum
  rw [hended, List.length_append, List.length_append] at hlength
  constructor
  · rw [haccumulates.samples]
    omega
  · rw [haccumulates.passes]
    omega

/-- Whatever is done to a tile of a region whose pixels a word can number, as long as its counters
are words: its buffers keep their size; it counts the passes ended and adds up, in order, the
samples recorded since its samples were last dropped, by a reset or by the begin of a pass of
another generation than that of the pass begun before; it shows what was recorded last; and the
averages are those of the last end of a pass that left samples. -/
theorem run_bookkeeping {r : Region} (hsize : r.SizeFits) {history : List TileCommand}
    (hcounters : ∀ done, done <+: history → ((ofRegion r).run done).CountersFit) :
    ∃ start t before since, ofRegion? r = some start ∧ start.run? history = some t ∧
      t = (ofRegion r).run history ∧ history = before ++ since ∧
      (before = [] ∨ ∃ earlier last, before = earlier ++ [last] ∧ Drops earlier last) ∧
      (∀ first next rest, since = first ++ next :: rest → ¬Drops (before ++ first) next) ∧
      (t.color.size = r.width * r.height ∧ t.depth.size = r.width * r.height ∧
        t.albedo.size = r.width * r.height ∧ t.normal.size = r.width * r.height ∧
        t.sums.size = r.width * r.height) ∧
      t.samples = (ended since).sum ∧ t.passes = (ended since).length ∧
      (∀ i < r.width * r.height, t.sums[i]? = some (sumOf (recorded i since)) ∧
        t.depth[i]? = some (lastOf (·.depth) Scalar.infinity (recorded i history)) ∧
        t.albedo[i]? = some (lastOf (·.albedo) .zero (recorded i history)) ∧
        t.normal[i]? = some (lastOf (·.normal) .zero (recorded i history))) ∧
      (∀ g, (t.beginPass g).passes =
        if g = lastBegun history then (ended since).length else 0) ∧
      (∀ command after, t.step? command = some after → after.color = t.color ∨
        ∃ samples, command = .endPass samples ∧ 0 < after.samples) ∧
      (∀ samples after, t.endPass? samples = some after → 0 < after.samples →
        after.sums = t.sums ∧
        ∀ i : Nat, after.color[i]? = t.sums[i]?.map (average after.samples)) ∧
      ∀ i found, r.width * r.height ≤ i →
        t.record? i found = none ∧ t.step? (.record i found) = some t := by
  obtain ⟨before, since, hsplit, hlast, haccumulates⟩ := run_accumulates r history
  have hfits := (ofRegion_fits r).run history
  have hshows := run_showsLast r history
  refine ⟨_, _, before, since, ofRegion?_eq hsize, run?_eq hcounters, rfl, hsplit, hlast.dropped,
    hlast.kept, ⟨hfits.color, hfits.depth, hfits.albedo, hfits.normal, hfits.sums⟩,
    haccumulates.samples, haccumulates.passes, ?_, ?_, ?_, ?_, ?_⟩
  · intro i hi
    exact ⟨haccumulates.sums i hi, hshows.depth i hi, hshows.albedo i hi, hshows.normal i hi⟩
  · intro g
    rw [beginPass, run_generation]
    by_cases hsame : g = lastBegun history
    · rw [if_pos hsame.symm, if_pos hsame, haccumulates.passes]
    · rw [if_neg (Ne.symm hsame), if_neg hsame]
      rfl
  · intro command after hstep
    rw [eq_step_of_step? hstep]
    exact step_color _ command
  · intro samples after hend hpositive
    rw [eq_endPass_of_endPass? hend, endPass_eq] at hpositive ⊢
    refine ⟨rfl, fun i => ?_⟩
    dsimp only at hpositive ⊢
    rw [if_neg (Nat.ne_of_gt hpositive), Array.getElem?_map]
  · intro i found hi
    have hrefused : ((ofRegion r).run history).record? i found = none := by
      rw [hfits.record?_eq]
      exact if_neg (Nat.not_lt_of_le hi)
    exact ⟨hrefused, congrArg some (by rw [step, hrefused, Option.getD_none])⟩

theorem run_bookkeeping_two_generations :
    ∃ (found : PixelRecord) (history : List TileCommand),
      history = [.beginPass 5, .record 0 found, .endPass 2, .beginPass 5, .record 7 found,
        .endPass 0, .beginPass 6, .record 0 found, .record 0 found, .endPass 3] ∧
      (⟨4, 0, 3, 2, 1⟩ : Region).SizeFits ∧
      (∀ done, done <+: history → ((ofRegion ⟨4, 0, 3, 2, 1⟩).run done).CountersFit) ∧
      ∃ start t : Tile, ofRegion? ⟨4, 0, 3, 2, 1⟩ = some start ∧ start.run? history = some t ∧
        t.color.size = 6 ∧ t.samples = 3 ∧ t.depth[0]? = some found.depth ∧
        t.depth[5]? = some Scalar.infinity ∧ (t.beginPass 5).passes = 0 ∧
        t.record? 6 found = none := by
  let found : PixelRecord := ⟨.zero, 2.0, .zero, .zero⟩
  let history : List TileCommand :=
    [.beginPass 5, .record 0 found, .endPass 2, .beginPass 5, .record 7 found, .endPass 0,
      .beginPass 6, .record 0 found, .record 0 found, .endPass 3]
  have hsize : (⟨4, 0, 3, 2, 1⟩ : Region).SizeFits := by constructor <;> decide
  have hcounters : ∀ done, done <+: history → ((ofRegion ⟨4, 0, 3, 2, 1⟩).run done).CountersFit :=
    countersFit_of_ended _ (by decide) (by decide)
  obtain ⟨start, t, _, _, hstart, hrun, ht, -, -, -, ⟨hcolor, -⟩, -, -, hpixels, hpasses, -, -,
    hbeyond⟩ := run_bookkeeping hsize hcounters
  have hsamples : t.samples = 3 := ht ▸ rfl
  exact ⟨found, history, rfl, hsize, hcounters, start, t, hstart, hrun, hcolor, hsamples,
    (hpixels 0 (by decide)).2.1, (hpixels 5 (by decide)).2.1, (hpasses 5).trans (if_neg (by decide)),
    (hbeyond 6 found (by decide)).1⟩

end Tile

end TileTracer
