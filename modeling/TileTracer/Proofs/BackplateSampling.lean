import TileTracer.Image.Backplate
import TileTracer.Proofs.ArrayWrites
import TileTracer.Proofs.Binary32Bytes
import TileTracer.Proofs.Binary32Naturals
import TileTracer.Proofs.CheckedWords

namespace TileTracer

namespace Binary32

open Float.Model (Format UnpackedFloat)
open Float.Model.UnpackedFloat
open Scalar OrderedScalar

variable {x y : Float32}

theorem mul_not_number (hx : ¬ x ≤ x) (y : Float32) : ¬ x * y ≤ x * y := by
  intro hself
  obtain ⟨k, hk⟩ := le_self_iff.mp hself
  rw [mul_swap] at hk
  change place? (repack (mul .binary32 y.toModel.unpack x.toModel.unpack)) = some k at hk
  rw [unpack_of_not_number hx, mul_notANumber, place?_repack_notANumber] at hk
  cases hk

theorem clamp_not_number (hx : ¬ x ≤ x) (low high : Float32) : clamp x low high = x := by
  unfold clamp
  rw [if_neg fun h => hx (le_self_of_lt h).1, if_neg fun h => hx (le_self_of_lt h).2]

theorem clamp_within_unit (hx : x ≤ x) : Within (clamp x 0.0 1.0) 0 := by
  unfold clamp
  split
  · exact ⟨0, value?_zero, by norm_num⟩
  · next hlow =>
    split
    · exact ⟨1, value?_one, by norm_num⟩
    · next hhigh =>
      have hlow : 0.0 ≤ x := le_of_not_lt (by decide) hx hlow
      have hhigh : x ≤ 1.0 := le_of_not_lt hx (by decide) hhigh
      have hvalue := value?_eq_some_value
        (isFinite_of_nonneg hlow (lt_of_le_of_lt hhigh (by decide +kernel)))
      refine ⟨_, hvalue, abs_le.mpr ⟨?_, ?_⟩⟩
      · linarith [rational_le_of_le value?_zero hvalue hlow]
      · rw [pow_zero]
        exact rational_le_of_le hvalue value?_one hhigh

end Binary32

namespace Backplate

open Binary32 (value? clamp ofNat)
open Words

/-- The position `s` falls into part `i`, or has it as the nearest, of `count` equal parts of the
unit interval, as the product of the two says; what is not a number counts as 0. -/
structure FallsInto (s : Float32) (count i : Nat) : Prop where
  number : s ≤ s →
    ∃ v, value? (clamp s 0.0 1.0 * ofNat count) = some v ∧ i = min ⌊v⌋₊ (count - 1)
  notNumber : ¬ s ≤ s → i = 0

theorem cell_lt (s : Float32) {count : Nat} (hcount : 0 < count) : cell s count < count := by
  unfold cell
  omega

theorem value?_product {s : Float32} (hs : s ≤ s) {count : Nat} (hcount : count ≤ 2 ^ 32) :
    ∃ v, value? (clamp s 0.0 1.0 * ofNat count) = some v :=
  ⟨_, Binary32.value?_eq_some_value ((Binary32.clamp_within_unit hs).mul
    (Binary32.within_ofNat (b := 32) hcount (by decide)) (by decide)).isFinite⟩

theorem cell_of_number {s : Float32} {count : Nat} (hcount : count ≤ 2 ^ 32) {v : ℚ}
    (hv : value? (clamp s 0.0 1.0 * ofNat count) = some v) :
    cell s count = min ⌊v⌋₊ (count - 1) := by
  unfold cell
  rw [Binary32.toNat_toUInt32 hv]
  omega

theorem cell_of_not_number {s : Float32} (hs : ¬ s ≤ s) (count : Nat) : cell s count = 0 := by
  unfold cell
  have hproduct : ¬ clamp s 0.0 1.0 * ofNat count ≤ clamp s 0.0 1.0 * ofNat count :=
    Binary32.mul_not_number ((Binary32.clamp_not_number hs 0.0 1.0).symm ▸ hs) _
  rw [Binary32.toUInt32_of_not_number hproduct]
  exact Nat.zero_min _

theorem fallsInto_cell (s : Float32) {count : Nat} (hcount : count ≤ 2 ^ 32) :
    FallsInto s count (cell s count) where
  number hs := by
    obtain ⟨v, hv⟩ := value?_product hs hcount
    exact ⟨v, hv, cell_of_number hcount hv⟩
  notNumber hs := cell_of_not_number hs count

/-! ## Arithmetic in 32 bits -/

def index? (s : Float32) (count : UInt32) : Option UInt32 :=
  (predecessor? count).map (min (clamp s 0.0 1.0 * ofNat count.toNat).toUInt32)

/-- The pixel at a screen position, if there are pixels, with every step checked: `none` if a number
leaves 32 bits or the pixel lies outside. -/
def lookUp? (plate : Backplate) (screen : Vec2 Float32) : Option (Option Color) :=
  if plate.pixels.isEmpty then some none
  else do
    let x ← index? screen.x plate.width.toUInt32
    let y ← index? screen.y plate.height.toUInt32
    let row ← product? y plate.width.toUInt32
    let i ← sum? row x
    let color ← plate.pixels[i.toNat]?
    return some color

theorem index?_eq (s : Float32) (count : UInt32) (hcount : 0 < count.toNat) :
    ∃ i, index? s count = some i ∧ i.toNat = cell s count.toNat := by
  have hzero : count ≠ 0 := fun h => by
    rw [h] at hcount
    exact absurd hcount (by decide)
  have hone : (1 : UInt32) ≤ count := UInt32.le_iff_toNat_le.mpr hcount
  refine ⟨_, by rw [index?, predecessor?, if_neg hzero, Option.map_some], ?_⟩
  rw [UInt32.toNat_min, UInt32.toNat_sub_of_le _ _ hone]
  rfl

/-- The sides of a backplate say how many pixels there are, and 32 bits hold them. -/
structure Sized (plate : Backplate) : Prop where
  pixels : plate.pixels.size = plate.width * plate.height
  width : plate.width < 2 ^ 32
  height : plate.height < 2 ^ 32
  count : plate.width * plate.height ≤ 2 ^ 32

section

variable {plate : Backplate}

theorem Sized.isEmpty_iff (h : plate.Sized) :
    plate.pixels.isEmpty = true ↔ plate.width * plate.height = 0 := by
  rw [Array.isEmpty_iff_size_eq_zero, h.pixels]

theorem Sized.lookUp?_eq (h : plate.Sized) (hpixels : plate.width * plate.height ≠ 0)
    (screen : Vec2 Float32) :
    plate.lookUp? screen = some (some (plate.sample screen)) := by
  obtain ⟨hwidth, hheight⟩ := Nat.mul_ne_zero_iff.mp hpixels
  have hlt := ArrayWrites.row_index_lt (cell_lt screen.x (Nat.pos_of_ne_zero hwidth))
    (cell_lt screen.y (Nat.pos_of_ne_zero hheight))
  have hsize := hlt.trans_eq h.pixels.symm
  have hcount := h.count
  have hwidthWord : plate.width.toUInt32.toNat = plate.width := UInt32.toNat_ofNat_of_lt' h.width
  have hheightWord : plate.height.toUInt32.toNat = plate.height :=
    UInt32.toNat_ofNat_of_lt' h.height
  obtain ⟨x, hx?, hx⟩ := index?_eq screen.x plate.width.toUInt32 (by omega)
  obtain ⟨y, hy?, hy⟩ := index?_eq screen.y plate.height.toUInt32 (by omega)
  rw [hwidthWord] at hx
  rw [hheightWord] at hy
  obtain ⟨row, hrow?, hrow⟩ := product?_eq (a := y) (b := plate.width.toUInt32)
    (by rw [hy, hwidthWord]; omega)
  rw [hy, hwidthWord] at hrow
  obtain ⟨i, hi?, hi⟩ := sum?_eq (a := row) (b := x) (by rw [hrow, hx]; omega)
  rw [hrow, hx] at hi
  rw [lookUp?, if_neg (by rw [h.isEmpty_iff]; exact hpixels), hx?, hy?]
  simp only [Option.bind_eq_bind, Option.bind_some, hrow?, hi?, hi,
    Array.getElem?_eq_getElem hsize, sample, Array.getD_eq_getD_getElem?, Option.getD_some]
  rfl

theorem Sized.lookUp?_empty (h : plate.Sized) (hpixels : plate.width * plate.height = 0)
    (screen : Vec2 Float32) :
    plate.lookUp? screen = some none ∧ plate.sample screen = .zero := by
  have hempty := h.isEmpty_iff.mpr hpixels
  refine ⟨if_pos hempty, ?_⟩
  rw [sample, Array.isEmpty_iff.mp hempty]
  rfl

end

/-! ## What backplates are made from -/

inductive Source where
  | color (c : Color)
  | image (b : Bitmap)

namespace Source

def plate : Source → Backplate
  | color c => solid c
  | image b => ofBitmap b

def pixel : Source → Nat → Nat → Color
  | color c, _, _ => c
  | image b, column, row => b.linear (row * b.width + column)

theorem sized (source : Source) (hwidth : source.plate.width < 2 ^ 32)
    (hheight : source.plate.height < 2 ^ 32)
    (hcount : source.plate.width * source.plate.height ≤ 2 ^ 32) : source.plate.Sized := by
  refine ⟨?_, hwidth, hheight, hcount⟩
  cases source with
  | color c => rfl
  | image b => exact Array.size_ofFn

theorem getElem?_pixels (source : Source) {column row : Nat} (hcolumn : column < source.plate.width)
    (hrow : row < source.plate.height) :
    source.plate.pixels[row * source.plate.width + column]? = some (source.pixel column row) := by
  cases source with
  | color c =>
    obtain rfl : column = 0 := Nat.lt_one_iff.mp hcolumn
    obtain rfl : row = 0 := Nat.lt_one_iff.mp hrow
    rfl
  | image b =>
    have hlt : row * b.width + column < b.width * b.height :=
      ArrayWrites.row_index_lt hcolumn hrow
    change (Array.ofFn _)[row * b.width + column]? = _
    rw [Array.getElem?_ofFn, dif_pos hlt]
    rfl

/-- Sampling never fails, and it finds nothing only if there are no pixels. Otherwise it finds the
pixel in the column and in the row that the screen position falls into. -/
theorem sample_nearest (source : Source) (hwidth : source.plate.width < 2 ^ 32)
    (hheight : source.plate.height < 2 ^ 32)
    (hcount : source.plate.width * source.plate.height ≤ 2 ^ 32) (screen : Vec2 Float32) :
    ∃ found, source.plate.lookUp? screen = some found ∧
      source.plate.sample screen = found.getD .zero ∧
      (found = none ↔ source.plate.width * source.plate.height = 0) ∧
      (source.plate.width * source.plate.height ≠ 0 →
        ∃ column < source.plate.width, ∃ row < source.plate.height,
          FallsInto screen.x source.plate.width column ∧
          FallsInto screen.y source.plate.height row ∧
          found = some (source.pixel column row)) := by
  have h := source.sized hwidth hheight hcount
  by_cases hpixels : source.plate.width * source.plate.height = 0
  · obtain ⟨hlook, hsample⟩ := h.lookUp?_empty hpixels screen
    exact ⟨none, hlook, hsample, iff_of_true rfl hpixels, fun hne => absurd hpixels hne⟩
  · obtain ⟨hwidth₀, hheight₀⟩ := Nat.mul_ne_zero_iff.mp hpixels
    have hcolumn := cell_lt screen.x (Nat.pos_of_ne_zero hwidth₀)
    have hrow := cell_lt screen.y (Nat.pos_of_ne_zero hheight₀)
    refine ⟨_, h.lookUp?_eq hpixels screen, rfl, iff_of_false nofun hpixels, fun _ =>
      ⟨_, hcolumn, _, hrow, fallsInto_cell _ hwidth.le, fallsInto_cell _ hheight.le, ?_⟩⟩
    rw [sample, Array.getD_eq_getD_getElem?, source.getElem?_pixels hcolumn hrow, Option.getD_some]

/-- Not a number across and past the lower edge: the lower left pixel of four. -/
theorem sample_nearest_lowerLeft :
    let source := Source.image ⟨2, 2, .rgb, .bytes #[255, 0, 0, 0, 255, 0, 0, 0, 255, 9, 9, 9]⟩
    source.plate.width < 2 ^ 32 ∧ source.plate.height < 2 ^ 32 ∧
      source.plate.width * source.plate.height ≤ 2 ^ 32 ∧
      source.plate.sample ⟨0.0 / 0.0, 7.5⟩ = source.pixel 0 1 := by
  intro source
  have hwidth : source.plate.width < 2 ^ 32 := by decide
  have hheight : source.plate.height < 2 ^ 32 := by decide
  have hcount : source.plate.width * source.plate.height ≤ 2 ^ 32 := by decide
  obtain ⟨found, -, hsample, -, hnearest⟩ :=
    source.sample_nearest hwidth hheight hcount ⟨0.0 / 0.0, 7.5⟩
  obtain ⟨column, -, row, -, hcolumn, hrow, rfl⟩ := hnearest (by decide)
  obtain ⟨v, hv, rfl⟩ := hrow.number (by decide +kernel)
  have hproduct : clamp (7.5 : Float32) 0.0 1.0 * ofNat 2 = ofNat 2 := by decide +kernel
  change value? (clamp (7.5 : Float32) 0.0 1.0 * ofNat 2) = some v at hv
  rw [hproduct, Binary32.value?_ofNat (by decide)] at hv
  obtain rfl := hcolumn.notNumber (by decide +kernel)
  obtain rfl : (2 : ℚ) = v := by simpa using hv
  refine ⟨hwidth, hheight, hcount, ?_⟩
  have hlast : min ⌊(2 : ℚ)⌋₊ (source.plate.height - 1) = 1 := by
    rw [Nat.floor_ofNat]
    rfl
  rw [hsample, Option.getD_some, hlast]

end Source

end Backplate

end TileTracer
