import TileTracer.Proofs.BufferHistory
import TileTracer.Proofs.CheckedWords
import TileTracer.Proofs.GridSweep

namespace TileTracer

open Words

/-- Checked steps that succeed wherever they lead to a state of a kind make a run that succeeds if
all its states are of that kind. -/
theorem foldlM_of_prefixes {σ β : Type} {I P : σ → Prop} {f : σ → β → Option σ} {g : σ → β → σ}
    (hstep : ∀ s b, I s → P (g s b) → f s b = some (g s b)) (hkeep : ∀ s b, I s → I (g s b))
    {l : List β} {s : σ} (hs : I s) (h : ∀ done, done <+: l → P (done.foldl g s)) :
    l.foldlM f s = some (l.foldl g s) := by
  induction l generalizing s with
  | nil => rfl
  | cons b l ih =>
      -- The state behind the first step is the one that the prefix of length one leads to.
      have hfirst : P (g s b) := h [b] (List.prefix_append [b] l)
      rw [List.foldlM_cons, hstep s b hs hfirst, Option.bind_eq_bind, Option.bind_some,
        List.foldl_cons]
      exact ih (hkeep s b hs) fun done hdone => h (b :: done) (List.cons_prefix_cons.mpr ⟨rfl, hdone⟩)

theorem forall_prefixes_cons {σ β : Type} {P : σ → Prop} {g : σ → β → σ} {b : β} {l : List β} {s : σ}
    (hs : P s) (h : ∀ done, done <+: l → P (done.foldl g (g s b))) :
    ∀ done, done <+: b :: l → P (done.foldl g s) := by
  intro done hdone
  rcases List.prefix_cons_iff.mp hdone with rfl | ⟨rest, rfl, hrest⟩
  · exact hs
  · exact h rest hrest

/-- If checked steps fail just where they lead to a state of another kind, a run succeeds if and
only if all its states are of that kind. -/
theorem foldlM_isSome_iff {σ β : Type} {I P : σ → Prop} {f : σ → β → Option σ} {g : σ → β → σ}
    (hstep : ∀ s b, I s → P s → P (g s b) ∧ f s b = some (g s b) ∨ ¬P (g s b) ∧ f s b = none)
    (hkeep : ∀ s b, I s → I (g s b)) {l : List β} {s : σ} (hs : I s) (hP : P s) :
    (l.foldlM f s).isSome = true ↔ ∀ done, done <+: l → P (done.foldl g s) := by
  induction l generalizing s with
  | nil =>
      refine ⟨fun _ done hdone => ?_, fun _ => rfl⟩
      rwa [List.prefix_nil.mp hdone]
  | cons b l ih =>
      rw [List.foldlM_cons]
      rcases hstep s b hs hP with ⟨hnext, hf⟩ | ⟨hover, hf⟩
      · rw [hf]
        exact (ih (hkeep s b hs) hnext).trans ⟨forall_prefixes_cons hP,
          fun h done hdone => h (b :: done) (List.cons_prefix_cons.mpr ⟨rfl, hdone⟩)⟩
      · rw [hf]
        exact ⟨nofun, fun h => absurd (h [b] (List.prefix_append [b] l)) hover⟩

theorem mapM_eq_some_map {α β : Type} {f : α → Option β} {g : α → β} {l : List α}
    (h : ∀ a ∈ l, f a = some (g a)) : l.mapM f = some (l.map g) := by
  induction l with
  | nil => rfl
  | cons a l ih =>
      rw [List.mapM_cons, h a List.mem_cons_self,
        ih fun b hb => h b (List.mem_cons_of_mem a hb)]
      rfl

namespace Region

def pixelCount? (r : Region) : Option Nat := onNat? product? r.width r.height

/-- The sides of the region and the number of its pixels are words. -/
structure SizeFits (r : Region) : Prop where
  width : r.width < 2 ^ 32
  height : r.height < 2 ^ 32
  pixels : r.width * r.height < 2 ^ 32

theorem SizeFits.pixelCount?_eq {r : Region} (h : r.SizeFits) :
    r.pixelCount? = some r.pixelCount := by
  rw [pixelCount?, onNat?_product? h.width h.height, if_pos h.pixels, pixelCount]

theorem pixelCount?_isSome_iff (r : Region) : r.pixelCount?.isSome = true ↔ r.SizeFits := by
  refine ⟨fun hsome => ?_, fun h => by rw [h.pixelCount?_eq]; rfl⟩
  rw [pixelCount?] at hsome
  by_cases hwidth : r.width < 2 ^ 32
  · by_cases hheight : r.height < 2 ^ 32
    · rw [onNat?_product? hwidth hheight] at hsome
      exact ⟨hwidth, hheight, by_contra fun hover => by rw [if_neg hover] at hsome; cases hsome⟩
    · rw [onNat?, ofNat?_eq hwidth, ofNat?_of_le (Nat.le_of_not_lt hheight)] at hsome
      cases hsome
  · rw [onNat?, ofNat?_of_le (Nat.le_of_not_lt hwidth)] at hsome
    cases hsome

theorem cells_le {size : Nat} (hsize : 0 < size) (length : Nat) : cells length size ≤ length := by
  by_contra hlt
  have hstart := (lt_cells_iff hsize).mp (Nat.lt_of_not_le hlt)
  exact absurd (Nat.le_mul_of_pos_right length hsize) (Nat.not_le_of_lt hstart)

end Region

namespace Tile

def withPixels (region : Region) (n : Nat) : Tile where
  region := region
  color := .replicate n .zero
  depth := .replicate n Scalar.infinity
  albedo := .replicate n .zero
  normal := .replicate n .zero
  sums := .replicate n .zero
  samples := 0
  passes := 0
  generation := 0

def ofRegion? (r : Region) : Option Tile := r.pixelCount?.map (withPixels r)

theorem ofRegion?_eq {r : Region} (h : r.SizeFits) : ofRegion? r = some (ofRegion r) := by
  rw [ofRegion?, h.pixelCount?_eq]
  rfl

def endPass? (t : Tile) (samples : Nat) : Option Tile := do
  let total ← onNat? sum? t.samples samples
  let passes ← onNat? sum? t.passes 1
  let t := { t with samples := total, passes }
  if total = 0 then return t
  let inverse := 1.0 / Binary32.ofNat total
  return { t with color := t.sums.map (· * inverse) }

/-- The counters of the tile are words. -/
structure CountersFit (t : Tile) : Prop where
  samples : t.samples < 2 ^ 32
  passes : t.passes < 2 ^ 32

variable {t u : Tile}

theorem ofRegion_countersFit (r : Region) : (ofRegion r).CountersFit :=
  ⟨Nat.two_pow_pos 32, Nat.two_pow_pos 32⟩

theorem reset_countersFit (t : Tile) : t.reset.CountersFit :=
  ⟨Nat.two_pow_pos 32, Nat.two_pow_pos 32⟩

theorem CountersFit.beginPass (h : t.CountersFit) (generation : Nat) :
    (t.beginPass generation).CountersFit := by
  unfold Tile.beginPass
  split
  · exact h
  · exact ⟨Nat.two_pow_pos 32, Nat.two_pow_pos 32⟩

theorem CountersFit.step_record (h : t.CountersFit) (i : Nat) (found : PixelRecord) :
    (t.step (.record i found)).CountersFit := by
  change ((t.record? i found).getD t).CountersFit
  unfold record?
  split
  · exact ⟨h.samples, h.passes⟩
  · exact h

theorem endPass?_eq (t : Tile) (samples : Nat) :
    t.endPass? samples =
      if t.samples + samples < 2 ^ 32 ∧ t.passes + 1 < 2 ^ 32 then some (t.endPass samples)
      else none := by
  rw [endPass?, onNat?_sum?, onNat?_sum?]
  by_cases hsamples : t.samples + samples < 2 ^ 32
  · by_cases hpasses : t.passes + 1 < 2 ^ 32
    · rw [if_pos hsamples, if_pos hpasses, if_pos ⟨hsamples, hpasses⟩, endPass]
      simp only [Option.bind_eq_bind, Option.bind_some]
      split <;> rfl
    · have hover : ¬(t.samples + samples < 2 ^ 32 ∧ t.passes + 1 < 2 ^ 32) := by omega
      rw [if_pos hsamples, if_neg hpasses, if_neg hover]
      rfl
  · have hover : ¬(t.samples + samples < 2 ^ 32 ∧ t.passes + 1 < 2 ^ 32) := by omega
    rw [if_neg hsamples, if_neg hover]
    rfl

theorem CountersFit.endPass?_eq_some {samples : Nat} (h : (t.endPass samples).CountersFit) :
    t.endPass? samples = some (t.endPass samples) := by
  rw [endPass?_eq, ← endPass_samples, ← endPass_passes t samples, if_pos ⟨h.samples, h.passes⟩]

theorem endPass?_cases (t : Tile) (samples : Nat) :
    (t.endPass samples).CountersFit ∧ t.endPass? samples = some (t.endPass samples) ∨
      ¬(t.endPass samples).CountersFit ∧ t.endPass? samples = none := by
  by_cases hfits : (t.endPass samples).CountersFit
  · exact .inl ⟨hfits, hfits.endPass?_eq_some⟩
  · refine .inr ⟨hfits, ?_⟩
    rw [endPass?_eq, ← endPass_samples, ← endPass_passes t samples]
    exact if_neg fun h => hfits ⟨h.1, h.2⟩

theorem eq_endPass_of_endPass? {samples : Nat} (h : t.endPass? samples = some u) :
    u = t.endPass samples := by
  rw [endPass?_eq] at h
  split at h
  · exact (Option.some.inj h).symm
  · cases h

def step? (t : Tile) : TileCommand → Option Tile
  | .endPass samples => t.endPass? samples
  | command => some (t.step command)

theorem CountersFit.step?_eq {command : TileCommand} (h : (t.step command).CountersFit) :
    t.step? command = some (t.step command) := by
  cases command with
  | endPass samples => exact h.endPass?_eq_some
  | beginPass generation => rfl
  | record i found => rfl
  | reset => rfl

theorem CountersFit.step?_cases (h : t.CountersFit) (command : TileCommand) :
    (t.step command).CountersFit ∧ t.step? command = some (t.step command) ∨
      ¬(t.step command).CountersFit ∧ t.step? command = none := by
  cases command with
  | endPass samples => exact t.endPass?_cases samples
  | beginPass generation => exact .inl ⟨h.beginPass generation, rfl⟩
  | record i found => exact .inl ⟨h.step_record i found, rfl⟩
  | reset => exact .inl ⟨t.reset_countersFit, rfl⟩

theorem eq_step_of_step? {command : TileCommand} (h : t.step? command = some u) :
    u = t.step command := by
  cases command with
  | endPass samples => exact eq_endPass_of_endPass? h
  | beginPass generation => exact (Option.some.inj h).symm
  | record i found => exact (Option.some.inj h).symm
  | reset => exact (Option.some.inj h).symm

end Tile

/-- To cover the layout with tiles, words are enough. -/
structure Layout.TilesFit (layout : Layout) (tileSize : Nat) : Prop where
  width : layout.width < 2 ^ 32
  height : layout.height < 2 ^ 32
  size : tileSize < 2 ^ 32
  rows : Region.StepsFit layout.height (max tileSize 1)
  columns : Region.StepsFit layout.width (max tileSize 1)
  pixels : ∀ r ∈ Region.cover layout.width layout.height tileSize, r.width * r.height < 2 ^ 32

namespace FrameBuffer

/-- The tiles that cover a layout, cut out and made with words. -/
def coverTiles? (layout : Layout) (tileSize : Nat) : Option (Array Tile) := do
  let width ← ofNat? layout.width
  let height ← ofNat? layout.height
  let size ← ofNat? tileSize
  let regions ← Region.sweepCover width height size (2 ^ 33)
  let tiles ← regions.mapM Tile.ofRegion?
  return tiles.toArray

end FrameBuffer

namespace Layout

theorem TilesFit.of_small {layout : Layout} {tileSize : Nat} (hwidth : layout.width ≤ 2 ^ 31)
    (hheight : layout.height ≤ 2 ^ 31) (hsize : tileSize < 2 ^ 16) : layout.TilesFit tileSize := by
  have hsteps (length : Nat) (hlength : length ≤ 2 ^ 31) :
      Region.StepsFit length (max tileSize 1) := by
    intro i hi
    rw [Nat.succ_mul]
    omega
  refine ⟨by omega, by omega, by omega, hsteps _ hheight, hsteps _ hwidth, ?_⟩
  intro r hr
  obtain ⟨⟨-, hright⟩, -, hbottom⟩ := Region.dimensions_of_mem_cover hr
  have hpixels : r.width * r.height ≤ (2 ^ 16 - 1) * (2 ^ 16 - 1) :=
    Nat.mul_le_mul (by omega) (by omega)
  omega

variable {layout : Layout} {tileSize : Nat} (h : layout.TilesFit tileSize)

include h

theorem TilesFit.sizeFits {r : Region}
    (hr : r ∈ Region.cover layout.width layout.height tileSize) : r.SizeFits := by
  have hwidth := h.width
  have hheight := h.height
  obtain ⟨hright, hbottom⟩ := Region.inside_of_mem_cover hr
  exact ⟨by omega, by omega, h.pixels r hr⟩

theorem TilesFit.sweepCover_eq :
    Region.sweepCover layout.width.toUInt32 layout.height.toUInt32 tileSize.toUInt32 (2 ^ 33) =
      some (Region.cover layout.width layout.height tileSize) := by
  have hwidth := toNat_toUInt32 h.width
  have hheight := toNat_toUInt32 h.height
  have hsize : (max tileSize.toUInt32 1).toNat = max tileSize 1 := by
    rw [UInt32.toNat_max, toNat_toUInt32 h.size]
    rfl
  -- There are no more rows and columns than pixels along the sides, so the steps do not run out.
  have hcells := Nat.add_le_add
    (Region.cells_le (Nat.le_max_right tileSize 1) layout.height)
    (Region.cells_le (Nat.le_max_right tileSize 1) layout.width)
  have hlength := Nat.add_lt_add h.height h.width
  rw [Region.sweepCover_eq, hwidth, hheight, toNat_toUInt32 h.size]
  · rw [hheight, hsize]
    exact h.rows
  · rw [hwidth, hsize]
    exact fun _ => h.columns
  · rw [hheight, hwidth, hsize]
    omega

theorem TilesFit.coverTiles?_eq :
    FrameBuffer.coverTiles? layout tileSize = some (FrameBuffer.coverTiles layout tileSize) := by
  have htiles := mapM_eq_some_map (f := Tile.ofRegion?) (g := Tile.ofRegion)
    fun r hr => Tile.ofRegion?_eq (h.sizeFits hr)
  rw [FrameBuffer.coverTiles?, ofNat?_eq h.width, ofNat?_eq h.height, ofNat?_eq h.size]
  simp only [Option.bind_eq_bind, Option.bind_some, h.sweepCover_eq, htiles]
  rfl

theorem TilesFit.exists_cover :
    ∃ made, FrameBuffer.coverTiles? layout tileSize = some made ∧
      Tile.Cover made (Region.cover layout.width layout.height tileSize) :=
  ⟨_, h.coverTiles?_eq, Tile.cover_map_ofRegion _⟩

end Layout

end TileTracer
