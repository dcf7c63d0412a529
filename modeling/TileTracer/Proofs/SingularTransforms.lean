import Mathlib.LinearAlgebra.Matrix.Determinant.Basic
import Mathlib.LinearAlgebra.Matrix.Permanent
import TileTracer.Proofs.Binary32Error
import TileTracer.Scene.Instance

/-!
Whether a transform counts as singular is decided by the determinant of the whole matrix, evaluated
in binary32 and held against a fixed threshold. The evaluation is off from the exact determinant by
a share of the permanent of the magnitudes, which settles the decision for all determinants apart
from those next to the threshold.
-/

namespace TileTracer

open Binary32

/-! ## Expansions of four rows -/

section Expansions

variable {R : Type} [Add R] [Sub R] [Mul R] [Neg R] (M : Matrix (Fin 4) (Fin 4) R)

def minorTwo (i j : Fin 4) : R := M i 2 * M j 3 - M j 2 * M i 3

def minorThree (i j k : Fin 4) : R :=
  (M i 1 * minorTwo M j k - M j 1 * minorTwo M i k) + M k 1 * minorTwo M i j

/-- The determinant along the first column, in the order in which transforms evaluate it. -/
def expansion : R :=
  (M 0 0 * minorThree M 1 2 3 + M 2 0 * minorThree M 0 1 3) +
    (M 1 0 * -minorThree M 0 2 3 + M 3 0 * -minorThree M 0 1 2)

/-- The terms of a minor of two rows with all signs positive. -/
def massTwo (i j : Fin 4) : R := M i 2 * M j 3 + M j 2 * M i 3

def massThree (i j k : Fin 4) : R :=
  (M i 1 * massTwo M j k + M j 1 * massTwo M i k) + M k 1 * massTwo M i j

def mass : R :=
  (M 0 0 * massThree M 1 2 3 + M 2 0 * massThree M 0 1 3) +
    (M 1 0 * massThree M 0 2 3 + M 3 0 * massThree M 0 1 2)

end Expansions

theorem det_eq_expansion {R : Type} [CommRing R] (M : Matrix (Fin 4) (Fin 4) R) :
    M.det = expansion M := by
  simp only [expansion, minorThree, minorTwo]
  simp [Matrix.det_succ_row_zero, Fin.sum_univ_succ, Fin.succAbove]
  ring

section Permanents

variable {R : Type} [CommRing R]

theorem permanent_succ_column_zero {n : ℕ} (M : Matrix (Fin (n + 1)) (Fin (n + 1)) R) :
    M.permanent = ∑ i, M i 0 * (M.submatrix i.succAbove Fin.succ).permanent := by
  rw [Matrix.permanent, Finset.univ_perm_fin_succ, Finset.sum_map, ← Finset.univ_product_univ,
    Finset.sum_product]
  refine Finset.sum_congr rfl fun p _ => ?_
  simp only [Fin.prod_univ_succ, Equiv.toEmbedding_apply, Equiv.Perm.decomposeFin_symm_apply_zero,
    Equiv.Perm.decomposeFin_symm_apply_succ, ← Finset.mul_sum]
  refine congrArg (M p 0 * ·) ?_
  -- Row zero stands where row `p` was; in the minor the rows keep their own order.
  cases p using Fin.cases with
  | zero => simp [Matrix.permanent]
  | succ p =>
      refine Fintype.sum_equiv (Equiv.mulLeft p.cycleRange) _ _ fun σ => ?_
      simp [Fin.succAbove_cycleRange]

theorem permanent_three (M : Matrix (Fin 3) (Fin 3) R) :
    M.permanent = M 0 0 * (M 1 1 * M 2 2 + M 2 1 * M 1 2) +
      M 1 0 * (M 0 1 * M 2 2 + M 2 1 * M 0 2) + M 2 0 * (M 0 1 * M 1 2 + M 1 1 * M 0 2) := by
  simp [permanent_succ_column_zero, Fin.sum_univ_succ, Fin.succAbove]
  ring

theorem permanent_eq_mass (M : Matrix (Fin 4) (Fin 4) R) : M.permanent = mass M := by
  simp only [mass, massThree, massTwo]
  simp [permanent_succ_column_zero, Fin.sum_univ_succ, Fin.succAbove]
  ring

end Permanents

/-! ## The determinant of a transform -/

namespace Binary32

/-- By how much the evaluated determinant of a transform may be off. -/
def slack {n : ℕ} (M : Matrix (Fin n) (Fin n) ℚ) : ℚ := (M.map magnitude).permanent / 2 ^ 20

section

variable {E : Matrix (Fin 4) (Fin 4) Float32} {Q : Matrix (Fin 4) (Fin 4) ℚ}

theorem minorTwo_computes (h : ∀ i j, value? (E i j) = some (Q i j)) (i j : Fin 4) :
    Computes (minorTwo E i j) (minorTwo Q i j) (massTwo (Q.map magnitude) i j) 2 2 :=
  ((Computes.entry (h i 2)).mul (.entry (h j 3)) (by decide)).sub
    ((Computes.entry (h j 2)).mul (.entry (h i 3)) (by decide)) (by decide)

theorem minorThree_computes (h : ∀ i j, value? (E i j) = some (Q i j)) (i j k : Fin 4) :
    Computes (minorThree E i j k) (minorThree Q i j k) (massThree (Q.map magnitude) i j k) 5 3 := by
  have hterm (i j k : Fin 4) : Computes (E i 1 * minorTwo E j k) (Q i 1 * minorTwo Q j k)
      ((Q.map magnitude) i 1 * massTwo (Q.map magnitude) j k) 3 3 :=
    (Computes.entry (h i 1)).mul (minorTwo_computes h j k) (by decide)
  exact ((hterm i j k).sub (hterm j i k) (by decide)).add ((hterm k i j).later (by decide))
    (by decide)

theorem expansion_computes (h : ∀ i j, value? (E i j) = some (Q i j)) :
    Computes (expansion E) (expansion Q) (mass (Q.map magnitude)) 8 4 := by
  have hterm (l i j k : Fin 4) : Computes (E l 0 * minorThree E i j k) (Q l 0 * minorThree Q i j k)
      ((Q.map magnitude) l 0 * massThree (Q.map magnitude) i j k) 6 4 :=
    (Computes.entry (h l 0)).mul (minorThree_computes h i j k) (by decide)
  have hterm_neg (l i j k : Fin 4) :
      Computes (E l 0 * -minorThree E i j k) (Q l 0 * -minorThree Q i j k)
        ((Q.map magnitude) l 0 * massThree (Q.map magnitude) i j k) 6 4 :=
    (Computes.entry (h l 0)).mul (minorThree_computes h i j k).neg (by decide)
  exact ((hterm 0 1 2 3).add (hterm 2 0 1 3) (by decide)).add
    ((hterm_neg 1 0 2 3).add (hterm_neg 3 0 1 2) (by decide)) (by decide)

theorem minorTwo_within (h : ∀ i j, Within (E i j) 28) (i j : Fin 4) :
    Within (minorTwo E i j) 59 :=
  ((h i 2).mul (h j 3) (by decide)).sub ((h j 2).mul (h i 3) (by decide)) (by decide)

theorem minorThree_within (h : ∀ i j, Within (E i j) 28) (i j k : Fin 4) :
    Within (minorThree E i j k) 92 := by
  have hterm (i j k : Fin 4) : Within (E i 1 * minorTwo E j k) 88 :=
    (h i 1).mul (minorTwo_within h j k) (by decide)
  exact ((hterm i j k).sub (hterm j i k) (by decide)).add ((hterm k i j).mono (by decide))
    (by decide)

theorem expansion_within (h : ∀ i j, Within (E i j) 28) : Within (expansion E) 125 := by
  have hterm (l i j k : Fin 4) : Within (E l 0 * minorThree E i j k) 121 :=
    (h l 0).mul (minorThree_within h i j k) (by decide)
  have hterm_neg (l i j k : Fin 4) : Within (E l 0 * -minorThree E i j k) 121 :=
    (h l 0).mul (minorThree_within h i j k).neg (by decide)
  exact ((hterm 0 1 2 3).add (hterm 2 0 1 3) (by decide)).add
    ((hterm_neg 1 0 2 3).add (hterm_neg 3 0 1 2) (by decide)) (by decide)

end

end Binary32

namespace Transform

variable {m : Transform Float32}

def entries (m : Transform Float32) : Matrix (Fin 4) (Fin 4) Float32 :=
  !![m.x.x, m.y.x, m.z.x, m.w.x;
    m.x.y, m.y.y, m.z.y, m.w.y;
    m.x.z, m.y.z, m.z.z, m.w.z;
    m.x.w, m.y.w, m.z.w, m.w.w]

def matrix (m : Transform Float32) : Matrix (Fin 4) (Fin 4) ℚ := m.entries.map value

/-- The part of a transform that moves points, translation apart. -/
def linear (m : Transform Float32) : Matrix (Fin 3) (Fin 3) ℚ :=
  m.matrix.submatrix Fin.castSucc Fin.castSucc

/-- Points keep their weight, and directions have none. -/
def IsAffine (m : Transform Float32) : Prop := m.matrix 3 = ![0, 0, 0, 1]

theorem isFinite_iff : m.isFinite = true ↔ ∀ i j, Scalar.isFinite (m.entries i j) = true := by
  simp only [isFinite, Vec4.isFinite, Bool.and_eq_true, Fin.forall_fin_succ, Fin.forall_fin_zero]
  simp [entries]
  tauto

theorem determinant_eq_expansion : m.determinant = expansion m.entries := rfl

/-- The evaluated determinant, should it be finite, is the exact one up to the slack. -/
theorem determinant_error (hm : m.isFinite = true) {c : ℚ} (hc : value? m.determinant = some c) :
    |c - m.matrix.det| ≤ slack m.matrix := by
  have hcomputes := expansion_computes (E := m.entries) (Q := m.matrix) fun i j =>
    value?_eq_some_value (isFinite_iff.mp hm i j)
  rw [← determinant_eq_expansion, ← det_eq_expansion, ← permanent_eq_mass] at hcomputes
  have hstretch : stretch ^ 8 - 1 ≤ 1 / 2 ^ 20 := by norm_num [stretch, roundoff]
  calc |c - m.matrix.det| ≤ (stretch ^ 8 - 1) * (m.matrix.map magnitude).permanent :=
      hcomputes.error hc
    _ ≤ 1 / 2 ^ 20 * (m.matrix.map magnitude).permanent :=
      mul_le_mul_of_nonneg_right hstretch hcomputes.mass_nonneg
    _ = slack m.matrix := by rw [slack, div_mul_eq_mul_div, one_mul]

/-- The evaluation does not overflow unless some entry is large. -/
theorem determinant_isFinite (hm : m.isFinite = true) (h : ∀ i j, |m.matrix i j| ≤ 2 ^ 28) :
    Scalar.isFinite m.determinant = true :=
  (expansion_within (E := m.entries) fun i j =>
    ⟨_, value?_eq_some_value (isFinite_iff.mp hm i j), h i j⟩).isFinite

namespace IsAffine

theorem det_eq (h : m.IsAffine) : m.matrix.det = m.linear.det := by
  have hrow (j : Fin 4) : m.matrix 3 j = ![0, 0, 0, 1] j := congrFun h j
  rw [det_eq_expansion, Matrix.det_fin_three]
  simp only [expansion, minorThree, minorTwo, hrow, linear, Matrix.submatrix_apply]
  simp
  ring

theorem slack_eq (h : m.IsAffine) : slack m.matrix = slack m.linear := by
  have hrow (j : Fin 4) : m.matrix.map magnitude 3 j = magnitude (![0, 0, 0, 1] j) :=
    congrArg magnitude (congrFun h j)
  rw [slack, slack, permanent_eq_mass, permanent_three]
  simp only [mass, massThree, massTwo, hrow, linear, Matrix.map_apply, Matrix.submatrix_apply]
  simp [magnitude_zero, magnitude_one]
  ring

end IsAffine

def scaling (s : Vec3 Float32) : Transform Float32 :=
  ⟨⟨s.x, 0.0, 0.0, 0.0⟩, ⟨0.0, s.y, 0.0, 0.0⟩, ⟨0.0, 0.0, s.z, 0.0⟩, ⟨0.0, 0.0, 0.0, 1.0⟩⟩

theorem scaling_isAffine (s : Vec3 Float32) : (scaling s).IsAffine := by
  funext j
  fin_cases j <;> simp [matrix, entries, scaling, value_zero, value_one]

theorem scaling_linear (s : Vec3 Float32) :
    (scaling s).linear = Matrix.diagonal ![value s.x, value s.y, value s.z] := by
  ext i j
  fin_cases i <;> fin_cases j <;> simp [linear, matrix, entries, scaling, value_zero]

theorem scaling_det (s : Vec3 Float32) :
    (scaling s).linear.det = value s.x * value s.y * value s.z := by
  rw [scaling_linear, Matrix.det_diagonal, Fin.prod_univ_three]
  rfl

theorem scaling_slack (s : Vec3 Float32) :
    slack (scaling s).linear =
      magnitude (value s.x) * magnitude (value s.y) * magnitude (value s.z) / 2 ^ 20 := by
  rw [slack, scaling_linear, Matrix.diagonal_map magnitude_zero, Matrix.permanent_diagonal,
    Fin.prod_univ_three]
  rfl

/-- Exchanges the first coordinate and the weight: all points come to one plane. -/
def exchange : Transform Float32 :=
  ⟨⟨0.0, 0.0, 0.0, 1.0⟩, ⟨0.0, 1.0, 0.0, 0.0⟩, ⟨0.0, 0.0, 1.0, 0.0⟩, ⟨1.0, 0.0, 0.0, 0.0⟩⟩

theorem exchange_linear_det : exchange.linear.det = 0 :=
  Matrix.det_eq_zero_of_column_eq_zero 0 fun i => by
    fin_cases i <;> exact value_zero

end Transform

namespace Instance

variable {i : Instance}

theorem defect?_of_valid_content (hfinite : i.transform.isFinite = true)
    (hcontent : i.content.defect? = none) :
    i.defect? =
      if i.transform.determinant.abs < epsilon then some .singularTransform else none := by
  simp only [defect?, hfinite, hcontent, Bool.not_true, Bool.false_eq_true, if_false]

/-- Off the threshold by more than the slack, the exact determinant of the whole matrix decides,
unless its evaluation overflows. For an affine transform it is that of the linear part, and so is
the slack. -/
theorem defect?_by_determinant (i : Instance) (hfinite : i.transform.isFinite = true)
    (hcontent : i.content.defect? = none) :
    (Scalar.isFinite i.transform.determinant = true →
      |i.transform.matrix.det| + slack i.transform.matrix < 1 / 2 ^ 23 →
        i.defect? = some .singularTransform) ∧
    (1 / 2 ^ 23 + slack i.transform.matrix ≤ |i.transform.matrix.det| → i.defect? = none) ∧
    (i.transform.IsAffine → i.transform.matrix.det = i.transform.linear.det ∧
      slack i.transform.matrix = slack i.transform.linear) ∧
    ((∀ row column, |i.transform.matrix row column| ≤ 2 ^ 28) →
      Scalar.isFinite i.transform.determinant = true) := by
  rw [defect?_of_valid_content hfinite hcontent]
  refine ⟨fun hdet hsmall => if_pos ?_, fun hlarge => if_neg fun hlt => ?_,
    fun haffine => ⟨haffine.det_eq, haffine.slack_eq⟩, Transform.determinant_isFinite hfinite⟩
  · have hvalue := value?_eq_some_value hdet
    rw [lt_iff_of_values (value?_abs hvalue) value?_epsilon]
    have herror := Transform.determinant_error hfinite hvalue
    have := abs_sub_abs_le_abs_sub (value i.transform.determinant) i.transform.matrix.det
    linarith
  · obtain ⟨c, hc⟩ := finite_of_abs_lt hlt
    rw [lt_iff_of_values (value?_abs hc) value?_epsilon] at hlt
    have herror := Transform.determinant_error hfinite hc
    have := abs_sub_abs_le_abs_sub i.transform.matrix.det c
    rw [abs_sub_comm] at this
    linarith

def ball (transform : Transform Float32) : Instance :=
  (geometry "ball" (.sphere Vec3.zero 1.0)).withTransform transform

theorem ball_transform (transform : Transform Float32) : (ball transform).transform = transform :=
  rfl

theorem ball_content (transform : Transform Float32) : (ball transform).content.defect? = none := by
  change Shape.defect? (.sphere Vec3.zero 1.0) = none
  decide

theorem value_small : value (0.00390625 : Float32) = 1 / 2 ^ 8 := value_eq (by decide +kernel)

theorem value_half : value (0.5 : Float32) = 1 / 2 := value_eq (by decide +kernel)

theorem defect?_by_determinant_uniform :
    (ball (.scaling (.splat 0.00390625))).defect? = some .singularTransform ∧
      (ball (.scaling (.splat 0.5))).defect? = none := by
  constructor
  · obtain ⟨hrefused, -, haffine, -⟩ := defect?_by_determinant (ball (.scaling (.splat 0.00390625)))
      (by decide) (ball_content _)
    obtain ⟨hdet, hslack⟩ := haffine (Transform.scaling_isAffine _)
    refine hrefused (by decide +kernel) ?_
    rw [hdet, hslack, ball_transform, Transform.scaling_det, Transform.scaling_slack]
    norm_num [Vec3.splat, value_small, magnitude]
  · obtain ⟨-, haccepted, haffine, -⟩ := defect?_by_determinant (ball (.scaling (.splat 0.5)))
      (by decide) (ball_content _)
    obtain ⟨hdet, hslack⟩ := haffine (Transform.scaling_isAffine _)
    refine haccepted ?_
    rw [hdet, hslack, ball_transform, Transform.scaling_det, Transform.scaling_slack]
    norm_num [Vec3.splat, value_half, magnitude]

/-- The linear part alone does not decide: a small scaling is refused though its linear part can be
inverted, and an exchange with the weight is accepted though it flattens all shapes. -/
theorem refused_invertible_accepted_collapsing :
    ((Transform.scaling (.splat 0.00390625)).isFinite = true ∧
      (Transform.scaling (.splat 0.00390625)).linear.det ≠ 0 ∧
      (ball (.scaling (.splat 0.00390625))).content.defect? = none ∧
      (ball (.scaling (.splat 0.00390625))).defect? = some .singularTransform) ∧
    Transform.exchange.isFinite = true ∧ Transform.exchange.linear.det = 0 ∧
      (ball .exchange).content.defect? = none ∧ (ball .exchange).defect? = none := by
  refine ⟨⟨by decide, ?_, ball_content _, by decide +kernel⟩, by decide,
    Transform.exchange_linear_det, ball_content _, by decide +kernel⟩
  rw [Transform.scaling_det]
  norm_num [Vec3.splat, value_small]

end Instance

end TileTracer
