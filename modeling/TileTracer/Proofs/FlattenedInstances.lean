import TileTracer.Proofs.CommittedHits
import TileTracer.Proofs.SingularTransforms

namespace TileTracer

/-- The corners of a triangle; other solids have none. -/
def Solid.corners {α : Type} : Solid α → List (Vec3 α)
  | triangle a b c => [a, b, c]
  | _ => []

namespace Mesh

variable {vertex? : Nat → Option (Vec3 Float32)} {indices : List Nat}
  {solids : List (Solid Float32)} {mesh : Mesh}

/-- The triangles of an index list take up its indices one after the other, three at a time, and
only a partial triangle at the end is left out. -/
theorem triangles_eq_some (h : triangles vertex? indices = some solids) :
    solids.length = indices.length / 3 ∧
      (∀ solid ∈ solids, ∃ a b c, solid = .triangle a b c) ∧
      (solids.flatMap Solid.corners).map some =
        (indices.take (3 * (indices.length / 3))).map vertex? := by
  fun_induction triangles vertex? indices generalizing solids with
  | case1 i j k rest ih =>
      simp only [Option.bind_eq_bind, Option.bind_eq_some_iff, Option.pure_def,
        Option.some.injEq] at h
      obtain ⟨a, ha, b, hb, c, hc, others, hothers, rfl⟩ := h
      obtain ⟨hlength, htriangles, hcorners⟩ := ih hothers
      have hcount : (i :: j :: k :: rest).length / 3 = rest.length / 3 + 1 :=
        Nat.add_div_right rest.length three_pos
      refine ⟨by rw [hcount, List.length_cons, hlength],
        List.forall_mem_cons.mpr ⟨⟨a, b, c, rfl⟩, htriangles⟩, ?_⟩
      rw [hcount, Nat.mul_add, List.flatMap_cons, List.map_append, hcorners]
      simp [Solid.corners, ha, hb, hc]
  | case2 indices hshort =>
      cases h
      have hlength : indices.length / 3 = 0 := by
        rcases indices with _ | ⟨i, _ | ⟨j, _ | ⟨k, rest⟩⟩⟩
        · rw [List.length_nil]
        · rw [List.length_singleton]
        · rw [List.length_cons, List.length_singleton]
        · exact absurd rfl (hshort i j k rest)
      simp [hlength]

theorem triangleCount_lt_iff : 3 * mesh.triangleCount < mesh.indices.length ↔
    mesh.indices.length % 3 ≠ 0 := by
  unfold triangleCount
  omega

end Mesh

/-- The primitives are those of a content in place: all of it, each part once, and nothing else. -/
def Content.FlattensTo (content : Content) (transform : Transform Float32) (owner : Nat)
    (ps : List (Primitive Float32)) : Prop :=
  (∀ p ∈ ps, p.owner = owner) ∧
  match content with
  | .geometry (.sphere center _) _ =>
      ∃ radius, ps.map (·.solid) = [.sphere (transform.apply center) radius]
  | .geometry (.mesh mesh) _ =>
      1 ≤ mesh.triangleCount ∧ ps.length = mesh.triangleCount ∧
      (∀ p ∈ ps, ∃ a b c, p.solid = .triangle a b c) ∧
      (ps.flatMap (·.solid.corners)).map some =
        mesh.indices.map fun index => mesh.positions[index]?.map transform.apply
  | .volume medium => ps.map (·.solid) = [.volume (medium.bounds.transformed transform)]

namespace Instance

variable {i : Instance} {owner : Nat} {ps : List (Primitive Float32)}

theorem solids_of_primitives (h : i.primitives owner = some ps) :
    i.content.solids i.transform = some (ps.map (·.solid)) := by
  obtain ⟨solids, hsolids, rfl⟩ := Option.map_eq_some_iff.mp h
  rw [hsolids, List.map_map]
  exact congrArg some (List.map_id solids).symm

theorem triangles_of_primitives {mesh : Mesh} {material : Option Material}
    (hcontent : i.content = .geometry (.mesh mesh) material) (h : i.primitives owner = some ps) :
    ps.length = mesh.triangleCount ∧ (∀ p ∈ ps, ∃ a b c, p.solid = .triangle a b c) ∧
      (ps.flatMap (·.solid.corners)).map some =
        (mesh.indices.take (3 * mesh.triangleCount)).map fun index =>
          mesh.positions[index]?.map i.transform.apply := by
  have hsolids := solids_of_primitives h
  rw [hcontent] at hsolids
  obtain ⟨hlength, htriangles, hcorners⟩ := Mesh.triangles_eq_some hsolids
  rw [List.length_map] at hlength
  rw [List.flatMap_map] at hcorners
  exact ⟨hlength, fun p hp => htriangles p.solid (List.mem_map_of_mem hp), hcorners⟩

theorem exists_flattening (hvalid : i.defect? = none) (owner : Nat) :
    ∃ ps, i.primitives owner = some ps ∧ i.content.FlattensTo i.transform owner ps := by
  obtain ⟨ps, hps⟩ := Option.isSome_iff_exists.mp (primitives_isSome_of_valid hvalid owner)
  refine ⟨ps, hps, owner_of_mem_primitives hps, ?_⟩
  have hsolids := solids_of_primitives hps
  obtain ⟨-, -, hcontent⟩ := defect?_eq_none_iff.mp hvalid
  cases hi : i.content with
  | volume medium =>
      rw [hi] at hsolids
      exact (Option.some.inj hsolids).symm
  | geometry shape material =>
      cases shape with
      | sphere center radius =>
          rw [hi] at hsolids
          exact ⟨_, (Option.some.inj hsolids).symm⟩
      | mesh mesh =>
          rw [hi] at hcontent
          obtain ⟨hne, hthree, -, -⟩ := Mesh.defect?_eq_none_iff.mp hcontent
          have hpos := List.length_pos_iff.mpr hne
          have hcount : 3 * mesh.triangleCount = mesh.indices.length := by
            unfold Mesh.triangleCount
            omega
          obtain ⟨hlength, htriangles, hcorners⟩ := triangles_of_primitives hi hps
          rw [hcount, List.take_length] at hcorners
          exact ⟨by omega, hlength, htriangles, hcorners⟩

/-- Checking makes flattening safe: an instance without a defect gives all of its content as
primitives of its own. And no mesh is refused without need: in place by a transform that passes its
check, and with finite vertices, one is refused only if it has no indices, some that flattening
leaves out, or one without a vertex. -/
theorem flattening_safe (i : Instance) :
    (i.defect? = none → ∀ owner, ∃ ps,
      i.primitives owner = some ps ∧ i.content.FlattensTo i.transform owner ps) ∧
    ∀ mesh material, i.content = .geometry (.mesh mesh) material → i.transform.isFinite = true →
      ¬ i.transform.determinant.abs < Binary32.epsilon →
      (∀ p ∈ mesh.positions, p.isFinite = true) →
      (i.defect? ≠ none ↔ mesh.indices = [] ∨ 3 * mesh.triangleCount < mesh.indices.length ∨
        ∃ index ∈ mesh.indices, mesh.positions.size ≤ index) ∧
      ∀ owner ps, i.primitives owner = some ps → ps.length = mesh.triangleCount := by
  refine ⟨exists_flattening, fun mesh material hi hfinite hdet hpositions => ⟨?_, ?_⟩⟩
  · have hcontent : i.content.defect? = mesh.defect? := congrArg Content.defect? hi
    rw [ne_eq, defect?_eq_none_iff, hcontent, Mesh.defect?_eq_none_iff, and_iff_right hfinite,
      and_iff_right hdet, and_iff_left hpositions, Mesh.triangleCount_lt_iff]
    simp only [not_and_or, not_not, not_forall, not_lt, exists_prop]
  · exact fun owner ps hps => (triangles_of_primitives hi hps).1

def square : Array (Vec3 Float32) := #[⟨0, 0, 0⟩, ⟨1, 0, 0⟩, ⟨0, 1, 0⟩, ⟨1, 1, 0⟩]

/-- Triangles between the corners of a square, two units away. -/
def sheet (indices : List Nat) : Instance :=
  (geometry "sheet" (.mesh ⟨square, indices⟩)).withTransform (.shift ⟨0, 0, -2⟩)

theorem flattening_safe_sheet :
    (∃ ps, (sheet [0, 1, 2, 2, 1, 3]).primitives 7 = some ps ∧
      (sheet [0, 1, 2, 2, 1, 3]).content.FlattensTo (.shift ⟨0, 0, -2⟩) 7 ps) ∧
    (sheet [0, 1, 2, 2]).defect? ≠ none ∧ (sheet [0, 1, 4]).defect? ≠ none ∧
    ∃ ps, (sheet [0, 1, 2, 2]).primitives 7 = some ps ∧ ps.length = 1 := by
  have hfinite : (Transform.shift (⟨0, 0, -2⟩ : Vec3 Float32)).isFinite = true := by decide +kernel
  have hdet : ¬ (Transform.shift (⟨0, 0, -2⟩ : Vec3 Float32)).determinant.abs < Binary32.epsilon := by
    decide +kernel
  have hsquare : ∀ p ∈ square, p.isFinite = true := by decide +kernel
  have hrefused (indices : List Nat) :=
    (flattening_safe (sheet indices)).2 ⟨square, indices⟩ none rfl hfinite hdet hsquare
  obtain ⟨hpartial, hlength⟩ := hrefused [0, 1, 2, 2]
  obtain ⟨ps, hps⟩ : ∃ ps, (sheet [0, 1, 2, 2]).primitives 7 = some ps := ⟨_, rfl⟩
  exact ⟨(flattening_safe (sheet [0, 1, 2, 2, 1, 3])).1 (by decide +kernel) 7,
    hpartial.mpr (.inr (.inl (by decide))),
    (hrefused [0, 1, 4]).1.mpr (.inr (.inr ⟨4, by decide, by decide⟩)), ps, hps, hlength 7 ps hps⟩

def halves : Mesh := ⟨square, [0, 1, 2, 2, 1, 3]⟩

def speck : Instance :=
  (geometry "speck" (.mesh halves)).withTransform (.scaling (.splat 0.00390625))

/-- That a transform can be inverted is not enough: a sound mesh is refused in place by a small
scaling. -/
theorem refused_invertible_mesh :
    speck.transform.isFinite = true ∧ speck.transform.matrix.det ≠ 0 ∧
      speck.content = .geometry (.mesh halves) none ∧ (∀ p ∈ halves.positions, p.isFinite = true) ∧
      ¬ (halves.indices = [] ∨ 3 * halves.triangleCount < halves.indices.length ∨
        ∃ index ∈ halves.indices, halves.positions.size ≤ index) ∧
      speck.defect? = some .singularTransform := by
  refine ⟨by decide +kernel, ?_, rfl, by decide +kernel, by decide +kernel, by decide +kernel⟩
  change (Transform.scaling (.splat 0.00390625)).matrix.det ≠ 0
  rw [(Transform.scaling_isAffine _).det_eq, Transform.scaling_det]
  norm_num [Vec3.splat, value_small]

end Instance

end TileTracer
