import Mathlib.Data.EReal.Inv
import TileTracer.Proofs.ExactNumbers
import TileTracer.Proofs.NarrowedWindow

namespace TileTracer.Exact

open Scalar

noncomputable section

/-- The place of a limit from below. -/
def lowest (a : Exact) : EReal := (rank? a).getD ⊥

def highest (a : Exact) : EReal := (rank? a).getD ⊤

end

variable {a b c d : Exact} {x : ℝ}

theorem under_iff : Under a b ↔ lowest a ≤ lowest b ∧ highest a ≤ highest b :=
  ranking.under_iff rfl rfl fun _ => ⟨bot_le, le_top⟩

theorem lowest_neg (a : Exact) : lowest (-a) = -highest a := by
  rcases a with _ | (_ | _) | _ <;> rfl

theorem highest_neg (a : Exact) : highest (-a) = -lowest a := by
  rcases a with _ | (_ | _) | _ <;> rfl

theorem under_neg (h : Under a b) : Under (-b) (-a) := by
  rw [under_iff] at h ⊢
  rw [lowest_neg, lowest_neg, highest_neg, highest_neg, EReal.neg_le_neg_iff, EReal.neg_le_neg_iff]
  exact h.symm

/-! ## Sums -/

/-- Opposite infinities cancel each other to the lowest limit. -/
theorem lowest_add (a b : Exact) : lowest (a + b) = lowest a + lowest b := by
  rcases a with _ | (_ | _) | ⟨x, s, h⟩ <;> rcases b with _ | (_ | _) | ⟨y, t, h'⟩
  case finite.finite => exact EReal.coe_add x y
  all_goals rfl

theorem rank?_neg_add (a b : Exact) : rank? (-(a + b)) = rank? (-a + -b) := by
  rcases a with _ | (_ | _) | ⟨x, s, h⟩ <;> rcases b with _ | (_ | _) | ⟨y, t, h'⟩
  case finite.finite => exact congrArg (fun z : ℝ => some (z : EReal)) (neg_add x y)
  all_goals rfl

theorem highest_add (a b : Exact) : highest (a + b) = -(-highest a + -highest b) := by
  have hneg : lowest (-(a + b)) = lowest (-a + -b) := congrArg (·.getD ⊥) (rank?_neg_add a b)
  rw [← lowest_neg, ← lowest_neg, ← lowest_add, ← hneg, lowest_neg, neg_neg]

theorem under_add (hab : Under a b) (hcd : Under c d) : Under (a + c) (b + d) := by
  rw [under_iff] at hab hcd ⊢
  rw [lowest_add, lowest_add, highest_add, highest_add, EReal.neg_le_neg_iff]
  exact ⟨add_le_add hab.1 hcd.1, add_le_add (EReal.neg_le_neg_iff.mpr hab.2)
    (EReal.neg_le_neg_iff.mpr hcd.2)⟩

/-! ## Products -/

instance : InvolutiveNeg Exact where
  neg_neg a := by
    rcases a with _ | (_ | _) | ⟨x, s, h⟩
    case finite =>
      change finite (- -x) (!!s) _ = finite x s h
      congr 1
      · exact neg_neg x
      · exact Bool.not_not s
    all_goals rfl

protected theorem mul_neg (a c : Exact) : a * -c = -(a * c) := by
  have hinfinite (p : Prop) [Decidable p] (s t : Bool) :
      (if p then notANumber else infinite (s ^^ !t)) = -(if p then notANumber else infinite (s ^^ t)) := by
    split
    · rfl
    · exact congrArg infinite (Bool.xor_not s t)
  rcases a with _ | s | ⟨x, s, h⟩ <;> rcases c with _ | t | ⟨y, t, h'⟩
  case infinite.infinite => exact congrArg infinite (Bool.xor_not s t)
  case infinite.finite =>
    change (if -y = 0 then notANumber else infinite (s ^^ !t)) = _
    simp only [neg_eq_zero]
    exact hinfinite (y = 0) s t
  case finite.infinite => exact hinfinite (x = 0) s t
  case finite.finite =>
    change finite (x * -y) (s ^^ !t) _ = finite (-(x * y)) (!(s ^^ t)) _
    congr 1
    · exact mul_neg x y
    · exact Bool.xor_not s t
  all_goals rfl

theorem eq_of_pos (h : 0.0 < a) : a = infinite false ∨ ∃ x h, a = finite x false h ∧ 0 < x := by
  rcases a with _ | (_ | _) | ⟨x, s, hs⟩
  · obtain ⟨_, _, _, hrank, _⟩ := h
    cases hrank
  · exact .inl rfl
  · exact absurd ((ranking.lt_iff_of_rank HasValue.zero.rank rfl).mp h) not_lt_bot
  · have hx : 0 < x := (HasValue.zero.lt_iff (.finite x s hs)).mp h
    obtain rfl : s = false := hs.2 hx
    exact .inr ⟨x, hs, rfl, hx⟩

theorem limits_mul_finite (a : Exact) {h : SignOf x false} (hx : 0 < x) :
    lowest (a * finite x false h) = lowest a * x ∧ highest (a * finite x false h) = highest a * x := by
  have hinfinite (s : Bool) : infinite s * finite x false h = infinite s :=
    (if_neg hx.ne').trans (congrArg infinite (Bool.xor_false s))
  rcases a with _ | (_ | _) | ⟨y, t, h'⟩
  · exact ⟨(EReal.bot_mul_coe_of_pos hx).symm, (EReal.top_mul_coe_of_pos hx).symm⟩
  · rw [hinfinite]
    exact ⟨(EReal.top_mul_coe_of_pos hx).symm, (EReal.top_mul_coe_of_pos hx).symm⟩
  · rw [hinfinite]
    exact ⟨(EReal.bot_mul_coe_of_pos hx).symm, (EReal.bot_mul_coe_of_pos hx).symm⟩
  · exact ⟨EReal.coe_mul y x, EReal.coe_mul y x⟩

/-- A product with infinity keeps nothing but the side. -/
theorem limits_mul_infinite (a : Exact) :
    lowest (a * infinite false) = (if 0 < lowest a then ⊤ else ⊥) ∧
      highest (a * infinite false) = if highest a < 0 then ⊥ else ⊤ := by
  rcases a with _ | (_ | _) | ⟨y, t, h⟩
  · exact ⟨(if_neg not_lt_bot).symm, (if_neg not_top_lt).symm⟩
  · exact ⟨(if_pos EReal.zero_lt_top).symm, (if_neg not_top_lt).symm⟩
  · exact ⟨(if_neg not_lt_bot).symm, (if_pos EReal.bot_lt_zero).symm⟩
  · have hy : lowest (finite y t h) = y ∧ highest (finite y t h) = y := ⟨rfl, rfl⟩
    simp only [hy.1, hy.2, EReal.coe_pos, EReal.coe_neg']
    rcases lt_trichotomy y 0 with hneg | rfl | hpos
    · have heq : finite y t h * infinite false = infinite true := by
        refine (if_neg hneg.ne).trans (congrArg infinite ?_)
        rw [h.1 hneg]
        rfl
      rw [heq, if_neg hneg.not_gt, if_pos hneg]
      exact ⟨rfl, rfl⟩
    · have heq : finite 0 t h * infinite false = notANumber := if_pos rfl
      rw [heq, if_neg (lt_irrefl 0), if_neg (lt_irrefl 0)]
      exact ⟨rfl, rfl⟩
    · have heq : finite y t h * infinite false = infinite false := by
        refine (if_neg hpos.ne').trans (congrArg infinite ?_)
        rw [h.2 hpos]
        rfl
      rw [heq, if_pos hpos, if_neg hpos.not_gt]
      exact ⟨rfl, rfl⟩

theorem under_mul (hc : 0.0 < c) (hab : Under a b) : Under (a * c) (b * c) := by
  rw [under_iff] at hab ⊢
  rcases eq_of_pos hc with rfl | ⟨x, h, rfl, hx⟩
  · rw [(limits_mul_infinite a).1, (limits_mul_infinite b).1, (limits_mul_infinite a).2,
      (limits_mul_infinite b).2]
    constructor
    · split
      · next ha => rw [if_pos (ha.trans_le hab.1)]
      · exact bot_le
    · split
      · exact bot_le
      · next ha => rw [if_neg fun hb => ha (hab.2.trans_lt hb)]
  · rw [(limits_mul_finite a hx).1, (limits_mul_finite b hx).1, (limits_mul_finite a hx).2,
      (limits_mul_finite b hx).2]
    have hx' : (0 : EReal) ≤ x := EReal.coe_nonneg.mpr hx.le
    exact ⟨mul_le_mul_of_nonneg_right hab.1 hx', mul_le_mul_of_nonneg_right hab.2 hx'⟩

theorem neg_pos_of_neg (h : a < 0.0) : 0.0 < -a := by
  obtain ⟨x, y, hx, hy, hlt⟩ := h
  cases hy.symm.trans HasValue.zero.rank
  rcases a with _ | (_ | _) | ⟨z, s, hs⟩
  · cases hx
  · cases hx
    exact absurd hlt not_top_lt
  · exact (ranking.lt_iff_of_rank HasValue.zero.rank rfl).mpr EReal.zero_lt_top
  · cases hx
    exact (HasValue.zero.lt_iff (HasValue.finite z s hs).neg).mpr (neg_pos.mpr (EReal.coe_neg'.mp hlt))

instance : MonotoneScalar Exact where
  neg_infinity_lt_infinity := ⟨⊥, ⊤, rfl, rfl, bot_lt_top⟩
  le_infinity h := by
    obtain ⟨x, hx⟩ := ranking.le_self_iff.mp h
    exact ⟨x, ⊤, hx, rfl, le_top⟩
  neg_infinity_le h := by
    obtain ⟨x, hx⟩ := ranking.le_self_iff.mp h
    exact ⟨⊥, x, rfl, hx, bot_le⟩
  add_under := under_add
  sub_under hab hcd := under_add hab (under_neg hcd)
  mul_under_of_pos := under_mul
  mul_under_of_neg {a b c} hc hab := by
    have h := under_neg (under_mul (neg_pos_of_neg hc) hab)
    rwa [Exact.mul_neg, Exact.mul_neg, neg_neg, neg_neg] at h
  mul_under_of_not_number {a b c} hc := by
    cases c with
    | notANumber =>
        have hnone (a : Exact) : a * notANumber = notANumber := by cases a <;> rfl
        rw [hnone, hnone]
        exact .refl _
    | infinite s => cases s <;> exact absurd (ranking.le_self_iff.mpr ⟨_, rfl⟩) hc
    | finite x s h => exact absurd (HasValue.finite x s h).isNumber hc

/-! ## Roots -/

/-- Without a minus sign, so that a zero has a positive reciprocal. -/
def Unsigned : Exact → Prop
  | notANumber => True
  | infinite s => s = false
  | finite _ s _ => s = false

theorem unsigned_mul_self (a : Exact) : Unsigned (a * a) := by
  rcases a with _ | s | ⟨x, s, h⟩
  · trivial
  · exact Bool.xor_self s
  · exact Bool.xor_self s

theorem unsigned_add (ha : Unsigned a) (hb : Unsigned b) : Unsigned (a + b) := by
  rcases a with _ | s | ⟨x, s, hx⟩ <;> rcases b with _ | t | ⟨y, t, hy⟩
  case infinite.infinite =>
    obtain rfl : s = false := ha
    obtain rfl : t = false := hb
    rfl
  case infinite.finite => exact ha
  case finite.infinite => exact hb
  case finite.finite =>
    obtain rfl : s = false := ha
    obtain rfl : t = false := hb
    change (if x + y = 0 then false else decide (x + y < 0)) = false
    split
    · rfl
    · exact decide_eq_false (not_lt_of_ge (add_nonneg (le_of_not_gt fun h => nomatch hx.1 h)
        (le_of_not_gt fun h => nomatch hy.1 h)))
  all_goals trivial

theorem unsigned_lengthSquared (d : Vec3 Exact) : Unsigned d.lengthSquared :=
  unsigned_add (unsigned_add (unsigned_mul_self d.x) (unsigned_mul_self d.y))
    (unsigned_mul_self d.z)

theorem under_sqrt (a : Exact) : Under (-Scalar.sqrt a) (Scalar.sqrt a) := by
  rw [under_iff, lowest_neg, highest_neg]
  rcases a with _ | (_ | _) | ⟨x, s, h⟩
  · exact ⟨EReal.neg_top.le, EReal.neg_bot.le⟩
  · exact ⟨EReal.neg_top.trans_le bot_le, le_top⟩
  · exact ⟨EReal.neg_top.le, EReal.neg_bot.le⟩
  · change -highest (if x < 0 then notANumber else finite (√x) s h.sqrt) ≤
        lowest (if x < 0 then notANumber else finite (√x) s h.sqrt) ∧
      -lowest (if x < 0 then notANumber else finite (√x) s h.sqrt) ≤
        highest (if x < 0 then notANumber else finite (√x) s h.sqrt)
    split
    · exact ⟨EReal.neg_top.le, EReal.neg_bot.le⟩
    · have hroot : -√x ≤ √x := neg_le_self (Real.sqrt_nonneg x)
      exact ⟨EReal.coe_le_coe_iff.mpr hroot, EReal.coe_le_coe_iff.mpr hroot⟩

/-- Dividing by what has no minus sign does not turn the order around. -/
theorem not_div_lt_div (hab : Under a b) (hc : Unsigned c) : ¬ b / c < a / c := by
  have hmul (e : Exact) (he : 0.0 < e) (heq : ∀ a, a / c = a * e) : ¬ b / c < a / c := by
    rw [heq, heq]
    exact fun hlt => OrderedScalar.lt_irrefl _ ((under_mul he hab).below hlt)
  rcases c with _ | s | ⟨z, s, hz⟩
  · have hnone : b / notANumber = notANumber := by cases b <;> rfl
    rw [hnone]
    rintro ⟨_, _, h, _⟩
    cases h
  · -- Only finite values have a quotient, and that is zero.
    have hzero (a : Exact) : ∀ x, rank? (a / infinite s) = some x → x = 0 := by
      intro x hx
      cases a
      case finite => exact (Option.some.inj hx).symm
      all_goals cases hx
    rintro ⟨x, y, hx, hy, hlt⟩
    rw [hzero b x hx, hzero a y hy] at hlt
    exact lt_irrefl _ hlt
  · obtain rfl : s = false := hc
    rcases eq_or_lt_of_le (le_of_not_gt fun h => nomatch hz.1 h : 0 ≤ z) with rfl | hpos
    · refine hmul (infinite false)
        ((ranking.lt_iff_of_rank HasValue.zero.rank rfl).mpr EReal.zero_lt_top) fun a => ?_
      cases a
      case finite => exact if_pos rfl
      all_goals rfl
    · refine hmul (finite z⁻¹ false hz.inv)
        ((HasValue.zero.lt_iff (.finite _ _ _)).mpr (inv_pos.mpr hpos)) fun a => ?_
      rcases a with _ | t | ⟨x, t, h⟩
      · rfl
      · exact (if_neg (inv_ne_zero hpos.ne')).symm
      · refine (if_neg hpos.ne').trans ?_
        change finite (x / z) (t ^^ false) _ = finite (x * z⁻¹) (t ^^ false) _
        congr 1

instance : RootedScalar Exact where
  roots_ordered h x d :=
    not_div_lt_div (under_add (.refl h) (under_sqrt x)) (unsigned_lengthSquared d)

end TileTracer.Exact
