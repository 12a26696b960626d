import FieldPlot.Proofs.Geometry.Side

/-! Parts of a segment that lose no point of a rectangle. Cutting at the zero of a gap leaves such a
part, and parts of parts are parts. -/

namespace FieldPlot

variable {α : Type} [ExactScalar α]

open Pixel

namespace Rect

variable {rect : Rect α} {a b c d p : Pixel α}

/-- A segment, and what is left of it after some moves: no point of the rectangle is cut off. -/
def Slice (rect : Rect α) (a b c d : Pixel α) : Prop :=
  ∃ s t, 0 ≤ s ∧ s ≤ t ∧ t ≤ 1 ∧ c = along a b s ∧ d = along a b t ∧
    ∀ u, 0 ≤ u → u ≤ 1 → rect.Covers (along a b u) → s ≤ u ∧ u ≤ t

theorem Slice.refl (rect : Rect α) (a b : Pixel α) : Slice rect a b a b :=
  ⟨0, 1, le_refl 0, zero_le_one, le_refl 1, (along_zero a b).symm, (along_one a b).symm,
    fun _ hu hu' _ => ⟨hu, hu'⟩⟩

theorem Slice.first {side : Side} (ha : 0 < rect.gap side a) (hb : rect.gap side b ≤ 0) :
    Slice rect a b (along a b (rect.root side a b)) b := by
  obtain ⟨hroot, hroot'⟩ := root_mem_of_first ha hb
  refine ⟨rect.root side a b, 1, hroot, hroot', le_refl 1, rfl, (along_one a b).symm, ?_⟩
  intro u _ hu' hcovers
  refine ⟨?_, hu'⟩
  by_contra hlt
  have hgap := gap_pos_of_lt_root ha hb (not_le.mp hlt)
  exact absurd (covers_iff.mp hcovers side) (not_le.mpr hgap)

theorem Slice.second {side : Side} (ha : rect.gap side a ≤ 0) (hb : 0 < rect.gap side b) :
    Slice rect a b a (along a b (rect.root side a b)) := by
  obtain ⟨hroot, hroot'⟩ := root_mem_of_second ha hb
  refine ⟨0, rect.root side a b, le_refl 0, hroot, hroot', (along_zero a b).symm, rfl, ?_⟩
  intro u hu _ hcovers
  refine ⟨hu, ?_⟩
  by_contra hlt
  have hgap := gap_pos_of_root_lt ha hb (not_le.mp hlt)
  exact absurd (covers_iff.mp hcovers side) (not_le.mpr hgap)

theorem exists_between {s t u : α} (hs : s ≤ u) (ht : u ≤ t) :
    ∃ v, 0 ≤ v ∧ v ≤ 1 ∧ u = s + (t - s) * v := by
  rcases (hs.trans ht).eq_or_lt with heq | hlt
  · refine ⟨0, le_refl 0, zero_le_one, ?_⟩
    rw [mul_zero, add_zero]
    exact le_antisymm (heq ▸ ht) hs
  · have hd : 0 < t - s := sub_pos.mpr hlt
    refine ⟨(u - s) / (t - s), div_nonneg (sub_nonneg.mpr hs) hd.le, ?_, ?_⟩
    · rw [div_le_one hd]
      linarith
    · rw [mul_div_cancel₀ _ hd.ne']
      ring

theorem between_mono {s t v w : α} (h : s ≤ t) (hvw : v ≤ w) :
    s + (t - s) * v ≤ s + (t - s) * w := by
  have hmul := mul_le_mul_of_nonneg_left hvw (sub_nonneg.mpr h)
  linarith

theorem Slice.trans {p q : Pixel α} (h : Slice rect a b c d) (h' : Slice rect c d p q) :
    Slice rect a b p q := by
  obtain ⟨s, t, hs, hst, ht, rfl, rfl, hcut⟩ := h
  obtain ⟨s', t', hs', hst', ht', rfl, rfl, hcut'⟩ := h'
  refine ⟨s + (t - s) * s', s + (t - s) * t', ?_, between_mono hst hst', ?_, along_along .., 
    along_along .., ?_⟩
  · have h0 := between_mono hst hs'
    linarith
  · have h1 := between_mono hst ht'
    linarith
  · intro u hu hu' hcovers
    obtain ⟨hsu, hut⟩ := hcut u hu hu' hcovers
    obtain ⟨v, hv, hv', rfl⟩ := exists_between hsu hut
    rw [← along_along] at hcovers
    obtain ⟨hsv, hvt⟩ := hcut' v hv hv' hcovers
    exact ⟨between_mono hst hsv, between_mono hst hvt⟩

theorem Slice.segment_inter (h : Slice rect a b c d) :
    segment c d ∩ rect.points = segment a b ∩ rect.points := by
  obtain ⟨s, t, hs, hst, ht, rfl, rfl, hcut⟩ := h
  ext p
  constructor
  · rintro ⟨⟨v, hv, hv', rfl⟩, hp⟩
    refine ⟨⟨s + (t - s) * v, ?_, ?_, along_along ..⟩, hp⟩
    · have h0 := between_mono hst hv
      linarith
    · have h1 := between_mono hst hv'
      linarith
  · rintro ⟨⟨u, hu, hu', rfl⟩, hp⟩
    obtain ⟨hsu, hut⟩ := hcut u hu hu' hp
    obtain ⟨v, hv, hv', rfl⟩ := exists_between hsu hut
    exact ⟨⟨v, hv, hv', (along_along ..).symm⟩, hp⟩

theorem segment_subset (hc : rect.Covers c) (hd : rect.Covers d) : segment c d ⊆ rect.points := by
  rintro p ⟨t, ht, ht', rfl⟩
  exact covers_iff.mpr fun side =>
    gap_along_nonpos (covers_iff.mp hc side) (covers_iff.mp hd side) ht ht'

theorem segment_disjoint {side : Side} (hc : 0 < rect.gap side c) (hd : 0 < rect.gap side d) :
    segment c d ∩ rect.points = ∅ := by
  ext p
  simp only [Set.mem_inter_iff, Set.mem_empty_iff_false, iff_false, not_and]
  rintro ⟨t, ht, ht', rfl⟩ hp
  exact absurd (covers_iff.mp hp side) (not_le.mpr (gap_along_pos hc hd ht ht'))

end Rect

end FieldPlot
