import Mathlib.Algebra.Order.Ring.Int
import TileTracer.Proofs.CommandSettings

namespace TileTracer

namespace Params

variable {params : Params} {key : String} {absent : Int64}

/-- A value under the key, if there is one, is of one of these kinds. -/
def Holds (params : Params) (key : String) (kinds : List ParamKind) : Prop :=
  ∀ value, params.get? key = some value → value.kind ∈ kinds

def integer? (params : Params) (key : String) : Option Int64 :=
  (params.get? key).bind fun
    | .int i => some i
    | _ => none

theorem Holds.int_eq (h : params.Holds key [.int]) (absent : Int64) :
    params.int key absent = .ok ((params.integer? key).getD absent) := by
  unfold Params.int read? integer?
  cases hvalue : params.get? key with
  | none => rfl
  | some value =>
      have hkind := List.mem_singleton.mp (h value hvalue)
      cases value <;> cases hkind
      rfl

theorem Holds.exists_float_eq (h : params.Holds key [.float, .int]) (absent : Float32) :
    ∃ x, params.float key absent = .ok x := by
  unfold Params.float read?
  cases hvalue : params.get? key with
  | none => exact ⟨absent, rfl⟩
  | some value =>
      have hkind := List.mem_pair.mp (h value hvalue)
      cases value
      case float x => exact ⟨x, rfl⟩
      case int i => exact ⟨Binary32.ofInt i.toInt, rfl⟩
      all_goals rcases hkind with hkind | hkind <;> cases hkind

end Params

namespace Settings

/-- The low 32 bits of a request that is first raised to at least a limit. -/
theorem toNat_countOf (value : Int64) {least : Int64} (hleast : 0 ≤ least) :
    ((countOf value least).toNat : Int) = max value.toInt least.toInt % 2 ^ 32 := by
  have hcount {n : Int64} (hn : 0 ≤ n.toInt) :
      (n.toUInt64.toUInt32.toNat : Int) = n.toInt % 2 ^ 32 := by
    rw [UInt64.toNat_toUInt32, Int64.toNat_toUInt64_of_le (Int64.le_iff_toInt_le.mpr hn),
      Int64.toNatClampNeg, Int.natCast_emod, Int.toNat_of_nonneg hn]
    rfl
  have hnonneg : 0 ≤ least.toInt := Int64.le_iff_toInt_le.mp hleast
  change ((if value ≤ least then least else value).toUInt64.toUInt32.toNat : Int) = _
  split
  · next h =>
    have hle := Int64.le_iff_toInt_le.mp h
    rw [hcount hnonneg, Int.max_eq_right hle]
  · next h =>
    have hle : least.toInt ≤ value.toInt := by
      rw [Int64.le_iff_toInt_le] at h
      omega
    rw [hcount (Int.le_trans hnonneg hle), Int.max_eq_left hle]

/-- Settings can be read from the parameters, and these name no backplate. -/
structure Readable (params : Params) : Prop where
  maxDepth : params.Holds "max_depth" [.int]
  minContribution : params.Holds "min_contribution" [.float, .int]
  epsilon : params.Holds "epsilon" [.float, .int]
  samplesPerPixel : params.Holds "spp" [.int]
  backplate : params.get? "backplate" = none

variable {params : Params}

theorem Readable.exists_ofParams_eq (h : Readable params) (images : String → Option Bitmap) :
    ∃ s, ofParams images params = .ok s ∧
      s.maxDepth = countOf ((params.integer? "max_depth").getD 20) 0 ∧
      s.samplesPerPixel = countOf ((params.integer? "spp").getD 16) 1 := by
  obtain ⟨minContribution, hcontribution⟩ :=
    h.minContribution.exists_float_eq default.minContribution
  obtain ⟨epsilon, hepsilon⟩ := h.epsilon.exists_float_eq default.epsilon
  have hbackplate : backplateOf images params = .ok none := by
    simp only [backplateOf, Params.text?, Params.read?, h.backplate]
    rfl
  simp only [ofParams, hbackplate, h.maxDepth.int_eq, hcontribution, hepsilon,
    h.samplesPerPixel.int_eq]
  exact ⟨_, rfl, rfl, rfl⟩

/-- Settings are made with the requests limited from below, modulo `2 ^ 32`. So they are the
requests limited to what 32 bits hold unless a request is `2 ^ 32` or more, and then only by chance;
and they ask for at least one sample unless a request of `2 ^ 32` or more has no low bits. -/
theorem Readable.ofParams_counts (h : Readable params) (images : String → Option Bitmap) :
    let spp := ((params.integer? "spp").getD 16).toInt
    let maxDepth := ((params.integer? "max_depth").getD 20).toInt
    ∃ s, ofParams images params = .ok s ∧
      (s.samplesPerPixel.toNat : Int) = max spp 1 % 2 ^ 32 ∧
      (s.maxDepth.toNat : Int) = max maxDepth 0 % 2 ^ 32 ∧
      ((s.samplesPerPixel.toNat : Int) = min (max spp 1) (2 ^ 32 - 1) ↔
        spp < 2 ^ 32 ∨ spp % 2 ^ 32 = 2 ^ 32 - 1) ∧
      ((s.maxDepth.toNat : Int) = min (max maxDepth 0) (2 ^ 32 - 1) ↔
        maxDepth < 2 ^ 32 ∨ maxDepth % 2 ^ 32 = 2 ^ 32 - 1) ∧
      (1 ≤ s.samplesPerPixel.toNat ↔ spp < 2 ^ 32 ∨ spp % 2 ^ 32 ≠ 0) := by
  intro spp maxDepth
  obtain ⟨s, hs, hdepth, hsamples⟩ := h.exists_ofParams_eq images
  have hsamples : (s.samplesPerPixel.toNat : Int) = max spp 1 % 2 ^ 32 :=
    hsamples ▸ toNat_countOf _ (by decide)
  have hdepth : (s.maxDepth.toNat : Int) = max maxDepth 0 % 2 ^ 32 :=
    hdepth ▸ toNat_countOf _ (by decide)
  exact ⟨s, hs, hsamples, hdepth, by omega, by omega, by omega⟩

def requests (spp maxDepth : Int64) : Params :=
  .ofList [("spp", .int spp), ("max_depth", .int maxDepth)]

theorem requests_readable (spp maxDepth : Int64) : Readable (requests spp maxDepth) := by
  have hget? (key : String) : (requests spp maxDepth).get? key =
      if key = "max_depth" then some (.int maxDepth)
      else if key = "spp" then some (.int spp) else none := by
    simp [requests, Table.ofList, Table.get?_set]
  constructor <;> simp [Params.Holds, hget?, Param.kind]

theorem ofParams_counts_five :
    Readable (requests 4294967301 (-1)) ∧
      ∃ s, ofParams (fun _ => none) (requests 4294967301 (-1)) = .ok s ∧
        s.samplesPerPixel.toNat = 5 ∧ s.maxDepth.toNat = 0 := by
  have hreadable := requests_readable 4294967301 (-1)
  obtain ⟨s, hs, hsamples, hdepth, -⟩ := hreadable.ofParams_counts fun _ => none
  have hspp : (((requests 4294967301 (-1)).integer? "spp").getD 16).toInt = 4294967301 := by
    decide
  have hmaxDepth : (((requests 4294967301 (-1)).integer? "max_depth").getD 20).toInt = -1 := by
    decide
  rw [hspp] at hsamples
  rw [hmaxDepth] at hdepth
  exact ⟨hreadable, s, hs, by omega, by omega⟩

/-- One more than what 32 bits hold asks for nothing. -/
theorem ofParams_counts_wrapped :
    (ofParams (fun _ => none) (requests 4294967295 4294967295)).map
        (fun s => (s.samplesPerPixel, s.maxDepth)) = .ok (4294967295, 4294967295) ∧
      (ofParams (fun _ => none) (requests 4294967296 4294967296)).map
        (fun s => (s.samplesPerPixel, s.maxDepth)) = .ok (0, 0) := by
  constructor <;> rfl

end Settings

end TileTracer
