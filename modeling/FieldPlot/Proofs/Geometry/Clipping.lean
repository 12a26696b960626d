import FieldPlot.Proofs.Geometry.Endings
import FieldPlot.Proofs.Geometry.Round

/-! Clipping is exact over exact numbers. A first end outside of the rows takes one move to get between
them, and one more to get between the columns; then the second end takes two. -/

namespace FieldPlot

variable {α : Type} [ExactScalar α]

open Pixel

namespace Rect

variable {rect : Rect α} {a b c d p : Pixel α}

/-- What a clipping promises about the segment that it starts from. -/
def Clipped (rect : Rect α) (a b : Pixel α) : Option (Pixel α × Pixel α) → Prop
  | none => segment a b ∩ rect.points = ∅
  | some (c, d) => Slice rect a b c d ∧ rect.Covers c ∧ rect.Covers d

theorem Clipped.of_slice {o : Option (Pixel α × Pixel α)} (h : Slice rect a b c d)
    (h' : Clipped rect c d o) : Clipped rect a b o := by
  cases o with
  | none => exact h.segment_inter.symm.trans h'
  | some ends => exact ⟨h.trans h'.1, h'.2⟩

theorem Clips.clipped (hx : rect.left ≤ rect.right) (hy : rect.top ≤ rect.bottom) {n : Nat}
    {o : Option (Pixel α × Pixel α)} (h : Clips rect n a b o) : Clipped rect a b o := by
  induction h with
  | visible hround =>
    obtain ⟨r, hr, hfits⟩ := round_fits hx hy _ _
    cases hround.symm.trans hr
    exact ⟨Slice.refl .., hfits⟩
  | invisible hround =>
    obtain ⟨r, hr, hfits⟩ := round_fits hx hy _ _
    cases hround.symm.trans hr
    exact hfits
  | moved hround _ ih =>
    obtain ⟨r, hr, hfits⟩ := round_fits hx hy _ _
    cases hround.symm.trans hr
    exact Clipped.of_slice hfits ih

def EndsWithin (rect : Rect α) (k : Nat) (a b : Pixel α) : Prop :=
  ∃ n ≤ k, ∃ o, Clips rect n a b o

theorem EndsWithin.mono {k l : Nat} (h : EndsWithin rect k a b) (hkl : k ≤ l) :
    EndsWithin rect l a b := by
  obtain ⟨n, hn, o, hclips⟩ := h
  exact ⟨n, hn.trans hkl, o, hclips⟩

theorem EndsWithin.moved {k : Nat} (hround : rect.round a b = .ok (.moved c d))
    (h : EndsWithin rect k c d) : EndsWithin rect (k + 1) a b := by
  obtain ⟨n, hn, o, hclips⟩ := h
  exact ⟨n + 1, Nat.succ_le_succ hn, o, .moved hround hclips⟩

theorem EndsWithin.visible (ha : rect.Covers a) (hb : rect.Covers b) (k : Nat) :
    EndsWithin rect k a b :=
  ⟨0, Nat.zero_le k, _, .visible (round_visible ha hb)⟩

section

variable (hx : rect.left ≤ rect.right) (hy : rect.top ≤ rect.bottom)

theorem withinRows_of_gap_eq_zero (hy : rect.top ≤ rect.bottom) {side : Side}
    (hrow : side.isRow = true) (h : rect.gap side p = 0) : rect.WithinRows p := by
  cases side with
  | top =>
    refine ⟨h.le, ?_⟩
    simp only [gap] at h ⊢
    linarith
  | bottom =>
    refine ⟨?_, h.le⟩
    simp only [gap] at h ⊢
    linarith
  | left | right => cases hrow

theorem withinColumns_of_gap_eq_zero (hx : rect.left ≤ rect.right) {side : Side}
    (hcolumn : side.isRow = false) (h : rect.gap side p = 0) : rect.WithinColumns p := by
  cases side with
  | left =>
    refine ⟨h.le, ?_⟩
    simp only [gap] at h ⊢
    linarith
  | right =>
    refine ⟨?_, h.le⟩
    simp only [gap] at h ⊢
    linarith
  | top | bottom => cases hcolumn

include hx hy

theorem EndsWithin.invisible {side : Side} (ha : 0 < rect.gap side a) (hb : 0 < rect.gap side b)
    (k : Nat) : EndsWithin rect k a b :=
  ⟨0, Nat.zero_le k, _, .invisible (round_invisible hx hy ha hb)⟩

theorem endsWithin_one (ha : rect.Covers a) (hb : rect.WithinRows b) : EndsWithin rect 1 a b := by
  by_cases hcovers : rect.Covers b
  · exact .visible ha hcovers 1
  · obtain ⟨hgap, -⟩ := gap_side_pos hx hy hcovers
    have hcolumn := isRow_eq_false hb hgap
    have ha' := covers_iff.mp ha (rect.outer b)
    obtain ⟨hroot, hroot'⟩ := root_mem_of_second ha' hgap
    refine .moved (round_second hx hy ha hcovers) (.visible ha ⟨⟨?_, ?_⟩, ?_⟩ 0)
    · exact gap_along_nonpos ha.1.1 hb.1 hroot hroot'
    · exact gap_along_nonpos ha.1.2 hb.2 hroot hroot'
    · exact withinColumns_of_gap_eq_zero hx hcolumn (gap_root (ha'.trans_lt hgap).ne)

theorem endsWithin_two (ha : rect.Covers a) : EndsWithin rect 2 a b := by
  by_cases hcovers : rect.Covers b
  · exact .visible ha hcovers 2
  · obtain ⟨hgap, hrows⟩ := gap_side_pos hx hy hcovers
    cases hrow : (rect.outer b).isRow with
    | false => exact (endsWithin_one hx hy ha (hrows hrow)).mono (by omega)
    | true =>
      have ha' := covers_iff.mp ha (rect.outer b)
      have hzero := gap_root (ha'.trans_lt hgap).ne
      exact .moved (round_second hx hy ha hcovers)
        (endsWithin_one hx hy ha (withinRows_of_gap_eq_zero hy hrow hzero))

/-- Behind the first move of an end between the rows, that end is in the rectangle or the rest of the
segment lies beyond a row. -/
theorem endsWithin_three (ha : rect.WithinRows a) : EndsWithin rect 3 a b := by
  by_cases hcovers : rect.Covers a
  · exact (endsWithin_two hx hy hcovers).mono (by omega)
  rcases common_side_or rect a b with ⟨side, hgap, hgap'⟩ | hb
  · exact .invisible hx hy hgap hgap' 3
  obtain ⟨hgap, -⟩ := gap_side_pos hx hy hcovers
  have hb' := hb _ hgap
  have hzero := gap_root (hb'.trans_lt hgap).ne'
  have hcolumns := withinColumns_of_gap_eq_zero hx (isRow_eq_false ha hgap) hzero
  refine .moved (round_first hx hy hcovers hb) ?_
  by_cases hrows : rect.WithinRows (along a b (rect.root (rect.outer a) a b))
  · exact endsWithin_two hx hy ⟨hrows, hcolumns⟩
  · obtain ⟨side, hrow, hpos⟩ := exists_of_not_withinRows hrows
    obtain ⟨hroot, hroot'⟩ := root_mem_of_first hgap hb'
    refine .invisible hx hy hpos (not_le.mp fun hle => ?_) 2
    exact absurd (gap_along_nonpos (gap_le_of_isRow ha hrow) hle hroot hroot') (not_le.mpr hpos)

theorem endsWithin_four (a b : Pixel α) : EndsWithin rect 4 a b := by
  by_cases hrows : rect.WithinRows a
  · exact (endsWithin_three hx hy hrows).mono (by omega)
  rcases common_side_or rect a b with ⟨side, hgap, hgap'⟩ | hb
  · exact .invisible hx hy hgap hgap' 4
  have hcovers : ¬rect.Covers a := fun h => hrows h.1
  obtain ⟨hgap, hrow⟩ := gap_side_pos hx hy hcovers
  have hrow' : (rect.outer a).isRow = true := by
    cases h : (rect.outer a).isRow with
    | true => rfl
    | false => exact absurd (hrow h) hrows
  have hzero := gap_root ((hb _ hgap).trans_lt hgap).ne'
  exact .moved (round_first hx hy hcovers hb)
    (endsWithin_three hx hy (withinRows_of_gap_eq_zero hy hrow' hzero))

end

/-- Clipping two finite points ends after at most four moves, none of which divides by zero. What is
left is the part of the segment in the rectangle, in the direction of the segment. -/
theorem clip_exact (rect : Rect α) (a b : Pixel α) (hx : rect.left ≤ rect.right)
    (hy : rect.top ≤ rect.bottom) (ha : a.isFinite = true) (hb : b.isFinite = true) :
    ∃ n ≤ 4, ∃ o, Clips rect n a b o ∧ rect.clip a b = .ok o ∧
      (o = none ↔ segment a b ∩ rect.points = ∅) ∧
      (∀ c d, o = some (c, d) → rect.Covers c ∧ rect.Covers d ∧
        segment c d = segment a b ∩ rect.points ∧
        ∃ s t, 0 ≤ s ∧ s ≤ t ∧ t ≤ 1 ∧ c = along a b s ∧ d = along a b t) ∧
      (rect.Covers a → rect.Covers b → n = 0 ∧ o = some (a, b)) := by
  obtain ⟨n, hn, o, hclips⟩ := endsWithin_four hx hy a b
  have hclipped := hclips.clipped hx hy
  have hclip : rect.clip a b = .ok o := by
    rw [clip, ha, hb]
    exact hclips.clipWithin (Nat.lt_of_le_of_lt hn (by decide))
  have hexact : ∀ c d, o = some (c, d) → segment c d = segment a b ∩ rect.points := by
    rintro c d rfl
    obtain ⟨hslice, hc, hd⟩ := hclipped
    rw [← hslice.segment_inter]
    exact (Set.inter_eq_left.mpr (segment_subset hc hd)).symm
  refine ⟨n, hn, o, hclips, hclip, ⟨?_, ?_⟩, ?_, ?_⟩
  · rintro rfl
    exact hclipped
  · intro hempty
    cases o with
    | none => rfl
    | some ends =>
      have hfirst : ends.1 ∈ segment ends.1 ends.2 :=
        ⟨0, le_refl 0, zero_le_one, (along_zero ..).symm⟩
      rw [hexact _ _ rfl, hempty] at hfirst
      exact absurd hfirst (Set.notMem_empty _)
  · rintro c d rfl
    obtain ⟨s, t, hs, hst, ht, hc, hd, -⟩ := hclipped.1
    exact ⟨hclipped.2.1, hclipped.2.2, hexact c d rfl, s, t, hs, hst, ht, hc, hd⟩
  · intro hcovers hcovers'
    have hround := round_visible hcovers hcovers'
    cases hclips with
    | visible => exact ⟨rfl, rfl⟩
    | invisible h | moved h => cases hround.symm.trans h

/-- A diagonal has a part in a square that it crosses from corner to corner. -/
theorem clip_exact_diagonal : ∃ c d : Pixel ℚ,
    (⟨1, 1, 2, 2⟩ : Rect ℚ).clip ⟨0, 0⟩ ⟨3, 3⟩ = .ok (some (c, d)) ∧
      segment c d = segment ⟨0, 0⟩ ⟨3, 3⟩ ∩ (⟨1, 1, 2, 2⟩ : Rect ℚ).points := by
  obtain ⟨_, _, o, _, hclip, hnone, hsome, _⟩ :=
    clip_exact (⟨1, 1, 2, 2⟩ : Rect ℚ) ⟨0, 0⟩ ⟨3, 3⟩ one_le_two one_le_two rfl rfl
  cases o with
  | none =>
    have hcorner : (⟨1, 1⟩ : Pixel ℚ) ∈ segment ⟨0, 0⟩ ⟨3, 3⟩ ∩ (⟨1, 1, 2, 2⟩ : Rect ℚ).points := by
      refine ⟨⟨1 / 3, by norm_num, by norm_num, by norm_num [along]⟩, ?_⟩
      exact covers_iff_coordinates.mpr (by norm_num)
    rw [hnone.mp rfl] at hcorner
    exact absurd hcorner (Set.notMem_empty _)
  | some ends => exact ⟨ends.1, ends.2, hclip, (hsome _ _ rfl).2.2.1⟩

end Rect

end FieldPlot
