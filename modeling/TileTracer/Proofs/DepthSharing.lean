import TileTracer.Proofs.DepthNormalization

namespace TileTracer

namespace Scalar

variable {α : Type} [Scalar α] {a b : α}

/-- Two numbers that compare as equal, such as the two zeros. -/
def Alike (a b : α) : Prop := a ≤ b ∧ b ≤ a

theorem Alike.of_self (h : a ≤ a) : Alike a a := ⟨h, h⟩

end Scalar

open Scalar OrderedScalar

namespace DepthRange

def combine (ends ends' : Float32 × Float32) : Float32 × Float32 :=
  (lesser ends.1 ends'.1, greater ends.2 ends'.2)

/-- Depths cut into pieces, with the order in which the results of the pieces are combined. -/
inductive Sharing where
  | piece (depths : Array Float32)
  | join (left right : Sharing)

namespace Sharing

def depths : Sharing → List Float32
  | piece depths => depths.toList
  | join left right => left.depths ++ right.depths

/-- The ends found in every piece on its own, combined two by two. -/
def extent : Sharing → Float32 × Float32
  | piece depths => DepthRange.extent depths
  | join left right => combine left.extent right.extent

end Sharing

/-- The ends that may be found for some depths: infinite ones the wrong way round if no depth is
finite, or a least and a greatest finite depth. -/
inductive Found : Float32 × Float32 → List Float32 → Prop
  | none {depths : List Float32} (h : ∀ d ∈ depths, isFinite d = false) :
      Found (infinity, -infinity) depths
  | ends {low high : Float32} {depths : List Float32} (h : Ends low high depths) :
      Found (low, high) depths

variable {low high low' high' d : Float32} {depths depths' : List Float32}
  {ends ends' : Float32 × Float32}

theorem found_extent (depths : Array Float32) : Found (extent depths) depths.toList := by
  rw [extent_eq]
  rcases foldl_widen depths.toList with ⟨hnone, heq⟩ | ⟨low, high, heq, hends⟩
  · rw [heq]
    exact .none hnone
  · rw [heq]
    exact .ends hends

theorem Ends.of_mem_iff (h : Ends low high depths) (hmem : ∀ d, d ∈ depths ↔ d ∈ depths') :
    Ends low high depths' where
  low_mem := (hmem low).mp h.low_mem
  high_mem := (hmem high).mp h.high_mem
  low_isFinite := h.low_isFinite
  high_isFinite := h.high_isFinite
  between hd := h.between ((hmem _).mpr hd)

theorem Found.perm (h : Found ends depths) (hperm : depths.Perm depths') :
    Found ends depths' := by
  cases h with
  | none h => exact .none fun d hd => h d (hperm.mem_iff.mpr hd)
  | ends h => exact .ends (h.of_mem_iff fun d => hperm.mem_iff)

/-! ## Combining -/

theorem Ends.append (h : Ends low high depths) (h' : Ends low' high' depths') :
    Ends (lesser low low') (greater high high') (depths ++ depths') where
  low_mem := lesser_of_both (P := (· ∈ depths ++ depths')) (List.mem_append_left _ h.low_mem)
    (List.mem_append_right _ h'.low_mem)
  high_mem := greater_of_both (P := (· ∈ depths ++ depths')) (List.mem_append_left _ h.high_mem)
    (List.mem_append_right _ h'.high_mem)
  low_isFinite := lesser_isFinite h.low_isFinite h'.low_isFinite
  high_isFinite := greater_isFinite h.high_isFinite h'.high_isFinite
  between {d} hd hfinite := by
    rcases List.mem_append.mp hd with hd | hd
    · obtain ⟨hlow, hhigh⟩ := h.between hd hfinite
      have hself := le_self_of_isFinite h.high_isFinite
      exact ⟨lesser_le_of_le hlow, le_trans hhigh (le_greater_left hself)⟩
    · obtain ⟨hlow, hhigh⟩ := h'.between hd hfinite
      have hself := le_self_of_isFinite h'.low_isFinite
      have hself' := le_self_of_isFinite h'.high_isFinite
      exact ⟨le_trans (lesser_le_right hself) hlow, le_trans hhigh (le_greater_right hself')⟩

theorem Ends.append_none (h : Ends low high depths) (hnone : ∀ d ∈ depths', isFinite d = false) :
    Ends low high (depths ++ depths') where
  low_mem := List.mem_append_left _ h.low_mem
  high_mem := List.mem_append_left _ h.high_mem
  low_isFinite := h.low_isFinite
  high_isFinite := h.high_isFinite
  between {d} hd hfinite := by
    rcases List.mem_append.mp hd with hd | hd
    · exact h.between hd hfinite
    · rw [hnone d hd] at hfinite
      cases hfinite

theorem combine_none (h : Ends low high depths) :
    combine (low, high) (infinity, -infinity) = (low, high) ∧
      combine (infinity, -infinity) (low, high) = (low, high) := by
  obtain ⟨-, hlow⟩ := isFinite_eq_true.mp h.low_isFinite
  obtain ⟨hhigh, -⟩ := isFinite_eq_true.mp h.high_isFinite
  have hself := le_self_of_isFinite h.low_isFinite
  have hself' := le_self_of_isFinite h.high_isFinite
  constructor
  · refine Prod.ext (lesser_eq_left hself (lt_asymm hlow)) ?_
    change (if high < -infinity then _ else if high ≤ high then _ else _) = high
    rw [if_neg (lt_asymm hhigh), if_pos hself']
  · exact Prod.ext (lesser_of_lt hlow) (greater_of_lt hhigh)

theorem Found.combine (h : Found ends depths) (h' : Found ends' depths') :
    Found (DepthRange.combine ends ends') (depths ++ depths') := by
  cases h with
  | none h =>
      cases h' with
      | none h' => exact .none (List.forall_mem_append.mpr ⟨h, h'⟩)
      | ends h' =>
          rw [(combine_none h').2]
          exact .ends ((h'.append_none h).of_mem_iff fun d => List.perm_append_comm.mem_iff)
  | ends h =>
      cases h' with
      | none h' =>
          rw [(combine_none h).1]
          exact .ends (h.append_none h')
      | ends h' => exact .ends (h.append h')

theorem Sharing.found (s : Sharing) : Found s.extent s.depths := by
  induction s with
  | piece depths => exact found_extent depths
  | join left right ihLeft ihRight => exact ihLeft.combine ihRight

/-! ## What is found -/

theorem Ends.not_none (h : Ends low high depths) : ¬ ∀ d ∈ depths, isFinite d = false := by
  intro hnone
  have hlow := h.low_isFinite
  rw [hnone low h.low_mem] at hlow
  cases hlow

theorem Found.alike (h : Found ends depths) (h' : Found ends' depths) :
    Alike ends.1 ends'.1 ∧ Alike ends.2 ends'.2 := by
  cases h with
  | none h =>
      cases h' with
      | none h' => exact ⟨.of_self (by decide), .of_self (by decide)⟩
      | ends h' => exact absurd h h'.not_none
  | ends h =>
      cases h' with
      | none h' => exact absurd h' h.not_none
      | ends h' =>
          obtain ⟨hlow, -⟩ := h.between h'.low_mem h'.low_isFinite
          obtain ⟨-, hhigh⟩ := h.between h'.high_mem h'.high_isFinite
          obtain ⟨hlow', -⟩ := h'.between h.low_mem h.low_isFinite
          obtain ⟨-, hhigh'⟩ := h'.between h.high_mem h.high_isFinite
          exact ⟨⟨hlow, hlow'⟩, ⟨hhigh', hhigh⟩⟩

theorem Ends.low_le_high (h : Ends low high depths) : low ≤ high :=
  (h.between h.low_mem h.low_isFinite).2

theorem Ends.ofExtent_eq (h : Ends low high depths) :
    ofExtent low high = if low < high then .span low (1.0 / (high - low)) else .flat :=
  if_neg (not_lt_of_le h.low_le_high)

theorem Found.ofExtent_eq_background_iff (h : Found ends depths) :
    ofExtent ends.1 ends.2 = .background ↔ ∀ d ∈ depths, isFinite d = false := by
  cases h with
  | none h => exact iff_of_true rfl h
  | ends h =>
      refine iff_of_false ?_ h.not_none
      rw [h.ofExtent_eq]
      split <;> exact nofun

theorem Found.ofExtent_eq_flat_iff (h : Found ends depths) :
    ofExtent ends.1 ends.2 = .flat ↔ (∃ d ∈ depths, isFinite d = true) ∧
      ∀ d ∈ depths, ∀ e ∈ depths, isFinite d = true → isFinite e = true → Alike d e := by
  cases h with
  | none h =>
      refine iff_of_false (show background ≠ flat from nofun) ?_
      rintro ⟨⟨d, hd, hfinite⟩, -⟩
      rw [h d hd] at hfinite
      cases hfinite
  | @ends low high _ h =>
      rw [h.ofExtent_eq]
      constructor
      · intro hflat
        have hhigh : high ≤ low := by
          refine le_of_not_lt (le_self_of_isFinite h.high_isFinite)
            (le_self_of_isFinite h.low_isFinite) fun hlt => ?_
          rw [if_pos hlt] at hflat
          cases hflat
        refine ⟨⟨low, h.low_mem, h.low_isFinite⟩, fun d hd e he hdFinite heFinite => ?_⟩
        obtain ⟨hdLow, hdHigh⟩ := h.between hd hdFinite
        obtain ⟨heLow, heHigh⟩ := h.between he heFinite
        exact ⟨le_trans hdHigh (le_trans hhigh heLow), le_trans heHigh (le_trans hhigh hdLow)⟩
      · rintro ⟨-, halike⟩
        exact if_neg (not_lt_of_le
          (halike low h.low_mem high h.high_mem h.low_isFinite h.high_isFinite).2)

theorem Found.exists_ofExtent_eq_span (h : Found ends depths)
    (hapart : ∃ d ∈ depths, ∃ e ∈ depths, isFinite d = true ∧ isFinite e = true ∧ d < e) :
    ∃ least greatest, Ends least greatest depths ∧
      ofExtent ends.1 ends.2 = .span least (1.0 / (greatest - least)) := by
  obtain ⟨d, hd, e, he, hdFinite, heFinite, hlt⟩ := hapart
  cases h with
  | none h =>
      rw [h d hd] at hdFinite
      cases hdFinite
  | @ends low high _ h =>
      refine ⟨low, high, h, h.ofExtent_eq.trans (if_pos ?_)⟩
      exact lt_of_le_of_lt (h.between hd hdFinite).1
        (lt_of_lt_of_le hlt (h.between he heFinite).2)

/-- However the depths of a frame are shared out, in whatever order the pieces lie and their results
are combined, the ends are those that one pass finds, up to the sign of zero. The range that they
make is the background if no depth is finite, flat if all finite depths are equal, and otherwise the
span from the least to the greatest of them. -/
theorem Sharing.extent_alike (s : Sharing) {depths : Array Float32}
    (hs : s.depths.Perm depths.toList) :
    let range := ofExtent s.extent.1 s.extent.2
    Alike s.extent.1 (DepthRange.extent depths).1 ∧
    Alike s.extent.2 (DepthRange.extent depths).2 ∧
    (range = .background ↔ ∀ d ∈ depths, isFinite d = false) ∧
    (range = .flat ↔ (∃ d ∈ depths, isFinite d = true) ∧
      ∀ d ∈ depths, ∀ e ∈ depths, isFinite d = true → isFinite e = true → Alike d e) ∧
    ((∃ d ∈ depths, ∃ e ∈ depths, isFinite d = true ∧ isFinite e = true ∧ d < e) →
      ∃ least greatest, Ends least greatest depths.toList ∧
        range = .span least (1.0 / (greatest - least))) := by
  have hfound := s.found.perm hs
  obtain ⟨hlow, hhigh⟩ := hfound.alike (found_extent depths)
  simp only [← Array.mem_toList_iff]
  exact ⟨hlow, hhigh, hfound.ofExtent_eq_background_iff, hfound.ofExtent_eq_flat_iff,
    hfound.exists_ofExtent_eq_span⟩

/-- Depths in four pieces, one of them empty and one without a finite depth, combined from the
right. -/
def fourPieces : Sharing :=
  .join (.piece #[0.0, 5.0]) (.join (.piece #[]) (.join (.piece #[infinity]) (.piece #[-0.0, 2.0])))

def fivePixels : Array Float32 := #[infinity, -0.0, 2.0, 0.0, 5.0]

theorem Sharing.extent_alike_four_pieces :
    fourPieces.depths.Perm fivePixels.toList ∧
      Alike fourPieces.extent.1 0.0 ∧ Alike fourPieces.extent.2 5.0 ∧
      ∃ least greatest, Ends least greatest fivePixels.toList ∧
        ofExtent fourPieces.extent.1 fourPieces.extent.2 =
          .span least (1.0 / (greatest - least)) := by
  let first : List Float32 := [0.0, 5.0]
  have hperm : fourPieces.depths.Perm fivePixels.toList :=
    (List.perm_append_comm : (first ++ [infinity, -0.0, 2.0]).Perm _)
  obtain ⟨hlow, hhigh, -, -, hspan⟩ := fourPieces.extent_alike hperm
  have hextent : DepthRange.extent fivePixels = (-0.0, 5.0) := by decide +kernel
  rw [hextent] at hlow hhigh
  refine ⟨hperm, ⟨le_trans hlow.1 (by decide), le_trans (by decide) hlow.2⟩, hhigh, hspan ?_⟩
  exact ⟨2.0, by simp [fivePixels], 5.0, by simp [fivePixels], by decide +kernel,
    by decide +kernel, by decide +kernel⟩

end DepthRange

end TileTracer
