import FieldPlot.Proofs.Geometry.Slice

/-! One round of clipping over exact numbers, told by the gaps of the two ends. -/

namespace FieldPlot

variable {α : Type} [ExactScalar α]

open Pixel

namespace Region

/-- The side that a point outside of the rectangle is moved to. -/
def side (r : Region) : Side :=
  match r.row, r.column with
  | .before, _ => .top
  | .after, _ => .bottom
  | .within, .after => .right
  | .within, _ => .left

theorem sharesSide_eq_true_iff (r s : Region) : r.sharesSide s = true ↔
    (r.column ≠ .within ∧ r.column = s.column) ∨ (r.row ≠ .within ∧ r.row = s.row) := by
  simp [sharesSide]

end Region

namespace Rect

variable {rect : Rect α} {a b c d p : Pixel α}

theorem crossColumn_eq {a b : Pixel α} {x t : α} (hne : b.x - a.x ≠ 0)
    (ht : t * (b.x - a.x) = x - a.x) : crossColumn a b x = .ok (along a b t) := by
  rw [crossColumn, Scalar.divide_of_ne_zero hne, ← ht, ← mul_assoc, mul_div_cancel_right₀ _ hne]
  have hx : x = a.x + (b.x - a.x) * t := by linear_combination -ht
  rw [hx]
  rfl

theorem crossRow_eq {a b : Pixel α} {y t : α} (hne : b.y - a.y ≠ 0)
    (ht : t * (b.y - a.y) = y - a.y) : crossRow a b y = .ok (along a b t) := by
  rw [crossRow, Scalar.divide_of_ne_zero hne, ← ht, ← mul_assoc, mul_div_cancel_right₀ _ hne]
  have hy : y = a.y + (b.y - a.y) * t := by linear_combination -ht
  rw [hy]
  rfl

theorem root_mul {side : Side} (h : rect.gap side a ≠ rect.gap side b) :
    rect.root side a b * (rect.gap side a - rect.gap side b) = rect.gap side a :=
  div_mul_cancel₀ _ (sub_ne_zero.mpr h)

/-- A move divides by the difference of two gaps. -/
theorem cross_eq (region : Region) (h : rect.gap region.side a ≠ rect.gap region.side b) :
    rect.cross region a b = .ok (along a b (rect.root region.side a b)) := by
  have hroot := root_mul h
  have hne := sub_ne_zero.mpr h
  obtain ⟨column, row⟩ := region
  cases row with
  | before =>
    show crossRow a b rect.top = .ok (along a b (rect.root .top a b))
    simp only [Region.side, gap] at hroot hne
    exact crossRow_eq (fun hz => hne (by linear_combination hz)) (by linear_combination hroot)
  | after =>
    show crossRow a b rect.bottom = .ok (along a b (rect.root .bottom a b))
    simp only [Region.side, gap] at hroot hne
    exact crossRow_eq (fun hz => hne (by linear_combination -hz)) (by linear_combination -hroot)
  | within =>
    cases column with
    | after =>
      show crossColumn a b rect.right = .ok (along a b (rect.root .right a b))
      simp only [Region.side, gap] at hroot hne
      exact crossColumn_eq (fun hz => hne (by linear_combination -hz))
        (by linear_combination -hroot)
    | before | within =>
      show crossColumn a b rect.left = .ok (along a b (rect.root .left a b))
      simp only [Region.side, gap] at hroot hne
      exact crossColumn_eq (fun hz => hne (by linear_combination hz))
        (by linear_combination hroot)

section

variable {lo hi z w : α}

theorem band_within_iff : Band.of z lo hi = .within ↔ lo - z ≤ 0 ∧ z - hi ≤ 0 := by
  rw [Band.of, sub_nonpos, sub_nonpos]
  by_cases hlo : z < lo
  · simp only [hlo, if_true, reduceCtorEq, false_iff, not_and]
    intro h
    exact absurd hlo (not_lt.mpr h)
  · by_cases hhi : hi < z
    · simp only [hlo, hhi, if_true, if_false, reduceCtorEq, false_iff, not_and]
      exact fun _ => not_le.mpr hhi
    · simp only [hlo, hhi, if_false, true_iff]
      exact ⟨not_lt.mp hlo, not_lt.mp hhi⟩

theorem band_before_iff : Band.of z lo hi = .before ↔ 0 < lo - z := by
  rw [Band.of, sub_pos]
  by_cases hlo : z < lo
  · simp only [hlo, if_true]
  · by_cases hhi : hi < z <;> simp only [hlo, hhi, if_true, if_false, reduceCtorEq]

theorem band_after_iff (h : lo ≤ hi) : Band.of z lo hi = .after ↔ 0 < z - hi := by
  rw [Band.of, sub_pos]
  by_cases hlo : z < lo
  · simp only [hlo, if_true, reduceCtorEq, false_iff, not_lt]
    exact hlo.le.trans h
  · by_cases hhi : hi < z <;> simp only [hlo, hhi, if_true, if_false, reduceCtorEq]

theorem bands_shared_iff (h : lo ≤ hi) :
    (Band.of z lo hi ≠ .within ∧ Band.of z lo hi = Band.of w lo hi) ↔
      (0 < lo - z ∧ 0 < lo - w) ∨ (0 < z - hi ∧ 0 < w - hi) := by
  rw [← band_before_iff, ← band_before_iff, ← band_after_iff h, ← band_after_iff h]
  cases Band.of z lo hi <;> cases Band.of w lo hi <;> decide

end

theorem of_eq_inside_iff : Region.of rect p = Region.inside ↔ rect.Covers p := by
  simp only [Region.of, Region.inside, Region.mk.injEq, band_within_iff, Covers, WithinRows,
    WithinColumns, gap]
  exact and_comm

/-- What an outside point is moved to is a side that it lies beyond, and a row wherever it can be. -/
theorem gap_side_pos (hx : rect.left ≤ rect.right) (hy : rect.top ≤ rect.bottom)
    (hp : ¬rect.Covers p) : 0 < rect.gap (Region.of rect p).side p ∧
      ((Region.of rect p).side.isRow = false → rect.WithinRows p) := by
  rw [← of_eq_inside_iff] at hp
  cases hrow : (Region.of rect p).row with
  | before =>
    simp only [Region.side, hrow, Side.isRow, reduceCtorEq, false_implies, and_true]
    exact band_before_iff.mp hrow
  | after =>
    simp only [Region.side, hrow, Side.isRow, reduceCtorEq, false_implies, and_true]
    exact (band_after_iff hy).mp hrow
  | within =>
    have hrows : rect.WithinRows p := band_within_iff.mp hrow
    cases hcolumn : (Region.of rect p).column with
    | before =>
      simp only [Region.side, hrow, hcolumn]
      exact ⟨band_before_iff.mp hcolumn, fun _ => hrows⟩
    | after =>
      simp only [Region.side, hrow, hcolumn]
      exact ⟨(band_after_iff hx).mp hcolumn, fun _ => hrows⟩
    | within => exact absurd (congrArg₂ Region.mk hcolumn hrow) hp

theorem sharesSide_iff (hx : rect.left ≤ rect.right) (hy : rect.top ≤ rect.bottom) :
    (Region.of rect a).sharesSide (Region.of rect b) = true ↔
      ∃ side, 0 < rect.gap side a ∧ 0 < rect.gap side b := by
  simp only [Region.sharesSide_eq_true_iff, Region.of, bands_shared_iff hx, bands_shared_iff hy]
  constructor
  · rintro ((h | h) | (h | h))
    exacts [⟨.left, h⟩, ⟨.right, h⟩, ⟨.top, h⟩, ⟨.bottom, h⟩]
  · rintro ⟨side, h⟩
    cases side with
    | top => exact .inr (.inl h)
    | bottom => exact .inr (.inr h)
    | left => exact .inl (.inl h)
    | right => exact .inl (.inr h)

def outer (rect : Rect α) (p : Pixel α) : Side :=
  (Region.of rect p).side

section

variable (hx : rect.left ≤ rect.right) (hy : rect.top ≤ rect.bottom)

theorem round_visible (ha : rect.Covers a) (hb : rect.Covers b) :
    rect.round a b = .ok .visible := by
  simp only [round, of_eq_inside_iff.mpr ha, of_eq_inside_iff.mpr hb, decide_true, Bool.and_self,
    if_true]
  rfl

include hx hy

theorem round_invisible {side : Side} (ha : 0 < rect.gap side a) (hb : 0 < rect.gap side b) :
    rect.round a b = .ok .invisible := by
  have hout : ¬Region.of rect a = Region.inside := fun h =>
    absurd (covers_iff.mp (of_eq_inside_iff.mp h) side) (not_le.mpr ha)
  have hshared := (sharesSide_iff hx hy).mpr ⟨side, ha, hb⟩
  simp only [round, hout, hshared, decide_false, Bool.false_and, Bool.false_eq_true, if_false,
    if_true]
  rfl

theorem round_first (ha : ¬rect.Covers a) (hb : ∀ side, 0 < rect.gap side a → rect.gap side b ≤ 0) :
    rect.round a b = .ok (.moved (along a b (rect.root (rect.outer a) a b)) b) := by
  have hout := mt of_eq_inside_iff.mp ha
  have hshared : ¬(Region.of rect a).sharesSide (Region.of rect b) = true := by
    rw [sharesSide_iff hx hy]
    rintro ⟨side, hgap, hgap'⟩
    exact absurd (hb side hgap) (not_le.mpr hgap')
  have hgap := (gap_side_pos hx hy ha).1
  have hne : rect.gap (Region.of rect a).side a ≠ rect.gap (Region.of rect a).side b :=
    ((hb _ hgap).trans_lt hgap).ne'
  simp only [round, hout, hshared, decide_false, Bool.false_and, Bool.false_eq_true, if_false,
    cross_eq _ hne]
  rfl

theorem round_second (ha : rect.Covers a) (hb : ¬rect.Covers b) :
    rect.round a b = .ok (.moved a (along a b (rect.root (rect.outer b) a b))) := by
  have hin := of_eq_inside_iff.mpr ha
  have hout := mt of_eq_inside_iff.mp hb
  have hshared : ¬(Region.of rect a).sharesSide (Region.of rect b) = true := by
    rw [sharesSide_iff hx hy]
    rintro ⟨side, hgap, -⟩
    exact absurd (covers_iff.mp ha side) (not_le.mpr hgap)
  have hgap := (gap_side_pos hx hy hb).1
  have hne : rect.gap (Region.of rect b).side a ≠ rect.gap (Region.of rect b).side b :=
    ((covers_iff.mp ha _).trans_lt hgap).ne
  rw [hin] at hshared
  simp only [round, hin, hout, hshared, decide_false, Bool.and_false, Bool.false_eq_true, if_false,
    if_true, cross_eq _ hne]
  rfl

/-- What a round promises about the segment that it looks at. -/
def Fits (rect : Rect α) (a b : Pixel α) : Round α → Prop
  | .visible => rect.Covers a ∧ rect.Covers b
  | .invisible => segment a b ∩ rect.points = ∅
  | .moved c d => Slice rect a b c d

theorem round_fits (a b : Pixel α) : ∃ r, rect.round a b = .ok r ∧ Fits rect a b r := by
  by_cases ha : rect.Covers a
  · by_cases hb : rect.Covers b
    · exact ⟨_, round_visible ha hb, ha, hb⟩
    · exact ⟨_, round_second hx hy ha hb,
        Slice.second (covers_iff.mp ha _) (gap_side_pos hx hy hb).1⟩
  · rcases common_side_or rect a b with ⟨side, hgap, hgap'⟩ | hb
    · exact ⟨_, round_invisible hx hy hgap hgap', segment_disjoint hgap hgap'⟩
    · have hgap := (gap_side_pos hx hy ha).1
      exact ⟨_, round_first hx hy ha hb, Slice.first hgap (hb _ hgap)⟩

end

end Rect

end FieldPlot
