import Mathlib.Algebra.Order.Positive.Field
import TileTracer.Proofs.BoxEnclosure
import TileTracer.Proofs.ExactMonotone

namespace TileTracer

open Scalar OrderedScalar

abbrev Factor := {k : ℝ // 0 < k}

protected theorem Factor.mul_neg_iff (k : Factor) (x : ℝ) : (k : ℝ) * x < 0 ↔ x < 0 := by
  simp [mul_neg_iff, k.2, k.2.not_gt]

theorem SignOf.scale {x : ℝ} {s : Bool} (h : SignOf x s) (k : Factor) : SignOf (k * x) s :=
  ⟨fun hx => h.1 (by nlinarith [k.2]), fun hx => h.2 ((mul_pos_iff_of_pos_left k.2).mp hx)⟩

namespace Exact

noncomputable section

def ofFactor (k : Factor) : Exact := finite k false (.of_nonneg k.2.le)

instance : SMul Factor Exact where
  smul k
    | notANumber => notANumber
    | infinite s => infinite s
    | finite x s h => finite (k * x) s (h.scale k)

end

theorem finite_congr {x y : ℝ} {s t : Bool} {h : SignOf x s} {h' : SignOf y t} (hxy : x = y)
    (hst : s = t) : finite x s h = finite y t h' := by
  subst hxy hst
  rfl

variable (k l : Factor) (a b : Exact)

noncomputable instance : MulAction Factor Exact where
  one_smul a := by
    rcases a with _ | s | ⟨x, s, h⟩
    case finite => exact finite_congr (one_mul x) rfl
    all_goals rfl
  mul_smul k l a := by
    rcases a with _ | s | ⟨x, s, h⟩
    case finite => exact finite_congr (mul_assoc (k : ℝ) l x) rfl
    all_goals rfl

theorem smul_smul_eq : k • l • a = (k * l) • a := (mul_smul k l a).symm

theorem smul_ofValue (x : ℝ) (s : Bool) : k • ofValue x s = ofValue (k * x) s := by
  refine finite_congr rfl ?_
  simp only [mul_eq_zero_iff_left k.2.ne', k.mul_neg_iff]

theorem ofFactor_mul : ofFactor k * a = k • a := by
  rcases a with _ | s | ⟨x, s, h⟩
  · rfl
  · exact (if_neg k.2.ne').trans (congrArg infinite (Bool.false_xor s))
  · exact finite_congr rfl (Bool.false_xor s)

theorem div_ofFactor : a / ofFactor k = k⁻¹ • a := by
  rcases a with _ | s | ⟨x, s, h⟩
  · rfl
  · exact congrArg infinite (Bool.xor_false s)
  · exact (if_neg k.2.ne').trans (finite_congr (div_eq_inv_mul x (k : ℝ)) (Bool.xor_false s))

/-! ## Operations -/

theorem smul_neg : k • -a = -(k • a) := by
  rcases a with _ | s | ⟨x, s, h⟩
  case finite => exact finite_congr (mul_neg (k : ℝ) x) rfl
  all_goals rfl

theorem smul_add : k • (a + b) = k • a + k • b := by
  rcases a with _ | s | ⟨x, s, h⟩ <;> rcases b with _ | t | ⟨y, t, h'⟩
  case infinite.infinite =>
    change k • (if s = t then infinite s else notANumber) = if s = t then infinite s else notANumber
    split <;> rfl
  case finite.finite =>
    refine (smul_ofValue k (x + y) (s && t)).trans ?_
    rw [mul_add]
    rfl
  all_goals rfl

theorem smul_sub : k • (a - b) = k • a - k • b :=
  (smul_add k a (-b)).trans (congrArg (k • a + ·) (smul_neg k b))

theorem smul_mul : k • a * b = k • (a * b) := by
  rcases a with _ | s | ⟨x, s, h⟩ <;> rcases b with _ | t | ⟨y, t, h'⟩
  case infinite.finite =>
    change (if y = 0 then notANumber else infinite (s ^^ t)) =
      k • if y = 0 then notANumber else infinite (s ^^ t)
    split <;> rfl
  case finite.infinite =>
    change (if (k : ℝ) * x = 0 then notANumber else infinite (s ^^ t)) =
      k • if x = 0 then notANumber else infinite (s ^^ t)
    simp only [mul_eq_zero_iff_left k.2.ne']
    split <;> rfl
  case finite.finite => exact finite_congr (mul_assoc (k : ℝ) x y) rfl
  all_goals rfl

protected theorem mul_comm : a * b = b * a := by
  rcases a with _ | s | ⟨x, s, h⟩ <;> rcases b with _ | t | ⟨y, t, h'⟩
  case finite.finite => exact finite_congr (mul_comm x y) (Bool.xor_comm s t)
  case infinite.infinite => exact congrArg infinite (Bool.xor_comm s t)
  case infinite.finite | finite.infinite =>
    exact congrArg (fun u => ite _ notANumber (infinite u)) (Bool.xor_comm s t)
  all_goals rfl

theorem mul_smul_right : a * k • b = k • (a * b) := by
  rw [Exact.mul_comm, smul_mul, Exact.mul_comm]

theorem smul_mul_smul : k • a * k • b = (k * k) • (a * b) := by
  rw [smul_mul, mul_smul_right, smul_smul_eq]

theorem smul_div : k • a / b = k • (a / b) := by
  rcases a with _ | s | ⟨x, s, h⟩ <;> rcases b with _ | t | ⟨y, t, h'⟩
  case finite.infinite => exact finite_congr (mul_zero (k : ℝ)).symm rfl
  case finite.finite =>
    change (if y = 0 then if (k : ℝ) * x = 0 then notANumber else infinite (s ^^ t)
        else finite (k * x / y) (s ^^ t) _) =
      k • if y = 0 then if x = 0 then notANumber else infinite (s ^^ t)
        else finite (x / y) (s ^^ t) _
    simp only [mul_eq_zero_iff_left k.2.ne']
    split
    · split <;> rfl
    · exact finite_congr (mul_div_assoc (k : ℝ) x y) rfl
  all_goals rfl

theorem div_smul : a / k • b = k⁻¹ • (a / b) := by
  rcases a with _ | s | ⟨x, s, h⟩ <;> rcases b with _ | t | ⟨y, t, h'⟩
  case finite.infinite => exact finite_congr (mul_zero _).symm rfl
  case finite.finite =>
    change (if (k : ℝ) * y = 0 then if x = 0 then notANumber else infinite (s ^^ t)
        else finite (x / (k * y)) (s ^^ t) _) =
      k⁻¹ • if y = 0 then if x = 0 then notANumber else infinite (s ^^ t)
        else finite (x / y) (s ^^ t) _
    simp only [mul_eq_zero_iff_left k.2.ne']
    split
    · split <;> rfl
    · refine finite_congr ?_ rfl
      change x / (k * y) = (k : ℝ)⁻¹ * (x / y)
      rw [div_mul_eq_div_div_swap, div_eq_inv_mul]
  all_goals rfl

theorem smul_div_smul : k • a / (k * k) • b = k⁻¹ • (a / b) := by
  rw [div_smul, smul_div, mul_inv, ← smul_smul_eq, inv_smul_smul]

theorem sqrt_smul : Scalar.sqrt ((k * k) • a) = k • Scalar.sqrt a := by
  rcases a with _ | (_ | _) | ⟨x, s, h⟩
  case finite =>
    have hneg : (k : ℝ) * k * x < 0 ↔ x < 0 := Factor.mul_neg_iff (k * k) x
    change (if (k : ℝ) * k * x < 0 then notANumber else finite (√(k * k * x)) s _) =
      k • if x < 0 then notANumber else finite (√x) s _
    simp only [hneg]
    split
    · rfl
    · refine finite_congr ?_ rfl
      rw [Real.sqrt_mul (mul_self_nonneg _), Real.sqrt_mul_self k.2.le]
  all_goals rfl

/-! ## Comparisons -/

theorem rank?_smul : rank? (k • a) = (rank? a).map ((k : ℝ) * · : EReal → EReal) := by
  rcases a with _ | (_ | _) | ⟨x, s, h⟩
  · rfl
  · exact congrArg some (EReal.coe_mul_top_of_pos k.2).symm
  · exact congrArg some (EReal.coe_mul_bot_of_pos k.2).symm
  · exact congrArg some (EReal.coe_mul (k : ℝ) x)

variable {a b}

theorem smul_le_smul (h : a ≤ b) : k • a ≤ k • b := by
  obtain ⟨x, y, hx, hy, hle⟩ := h
  refine ⟨(k : ℝ) * x, (k : ℝ) * y, ?_, ?_, ?_⟩
  · rw [rank?_smul, hx, Option.map_some]
  · rw [rank?_smul, hy, Option.map_some]
  · exact mul_le_mul_of_nonneg_left hle (EReal.coe_nonneg.mpr k.2.le)

theorem smul_le_smul_iff : k • a ≤ k • b ↔ a ≤ b := by
  refine ⟨fun h => ?_, smul_le_smul k⟩
  have hback := smul_le_smul k⁻¹ h
  rwa [inv_smul_smul, inv_smul_smul] at hback

theorem lt_iff_not_le : a < b ↔ a ≤ a ∧ b ≤ b ∧ ¬ b ≤ a :=
  ⟨fun h => ⟨(le_self_of_lt h).1, (le_self_of_lt h).2, fun hba => not_lt_of_le hba h⟩,
    fun ⟨ha, hb, hba⟩ => lt_of_not_le hb ha hba⟩

theorem smul_lt_smul_iff : k • a < k • b ↔ a < b := by
  simp only [lt_iff_not_le, smul_le_smul_iff]

theorem smul_zero : k • (0.0 : Exact) = 0.0 := by
  have hvalue : (0.0 : ℝ) = 0 := by norm_num
  refine (smul_ofValue k 0.0 false).trans ?_
  rw [hvalue, mul_zero, ← hvalue]
  rfl

theorem smul_lt_zero_iff : k • a < 0.0 ↔ a < 0.0 := by
  have h := smul_lt_smul_iff k (a := a) (b := 0.0)
  rwa [smul_zero] at h

variable (a b)

theorem lesser_smul : lesser (k • a) (k • b) = k • lesser a b := by
  unfold lesser
  simp only [smul_lt_smul_iff, smul_le_smul_iff, apply_ite (k • ·)]

theorem greater_smul : greater (k • a) (k • b) = k • greater a b := by
  unfold greater
  simp only [smul_lt_smul_iff, smul_le_smul_iff, apply_ite (k • ·)]

end Exact

/-! ## Vectors -/

namespace Vec3

open Exact

noncomputable instance : SMul Factor (Vec3 Exact) := ⟨fun k v => v.map (k • ·)⟩

variable (k : Factor) (u v : Vec3 Exact)

@[simp] theorem along_scaled (axis : Axis) : (k • v).along axis = k • v.along axis := by
  cases axis <;> rfl

theorem smul_dot : (k • u).dot v = k • u.dot v := by
  change k • u.x * v.x + k • u.y * v.y + k • u.z * v.z = _
  rw [smul_mul, smul_mul, smul_mul, ← smul_add, ← smul_add]
  rfl

theorem dot_smul : u.dot (k • v) = k • u.dot v := by
  change u.x * k • v.x + u.y * k • v.y + u.z * k • v.z = _
  rw [mul_smul_right, mul_smul_right, mul_smul_right, ← smul_add, ← smul_add]
  rfl

theorem smul_cross : (k • u).cross v = k • u.cross v := by
  change (⟨k • u.y * v.z - v.y * k • u.z, k • u.z * v.x - v.z * k • u.x,
    k • u.x * v.y - v.x * k • u.y⟩ : Vec3 Exact) = _
  simp only [smul_mul, mul_smul_right, ← smul_sub]
  rfl

theorem smul_lengthSquared : (k • v).lengthSquared = (k * k) • v.lengthSquared := by
  unfold lengthSquared
  rw [smul_dot, dot_smul, smul_smul_eq]

theorem smul_length : (k • v).length = k • v.length := by
  unfold length
  rw [smul_lengthSquared, sqrt_smul]

theorem smul_normalize : (k • v).normalize = v.normalize := by
  unfold normalize
  refine ext_along fun axis => ?_
  rw [smul_length, Exact.div_smul, along_mul, along_mul, along_scaled, smul_mul, mul_smul_right,
    smul_inv_smul]

end Vec3

end TileTracer
