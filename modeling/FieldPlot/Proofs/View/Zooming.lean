import FieldPlot.Proofs.Scalar.Quotient
import FieldPlot.Proofs.View.Limits
import FieldPlot.Vectors.Convention

/-! Zooming along one axis. Zooming in does not make the range larger unless it is below the smallest range
already, and zooming out does not make it smaller unless it is beyond the largest one. Both happen to the value
range alone: it is fitted to a function without regard to the limits, and only zooming along it respects them. -/

namespace FieldPlot.View

open Vectors (Axis)

/-- The zoom along an axis. -/
def ZoomAxis.along : Axis → ZoomAxis
  | .x => x
  | .y => y
  | .z => z

namespace SpaceView

variable {α : Type}

/-- What the view shows along an axis. -/
def range (v : SpaceView α) : Axis → α
  | .x => v.rangeX
  | .y => v.rangeY
  | .z => v.rangeZ

variable [Scalar α] {v w : SpaceView α}

/-- A view that gestures lead to, in numbers of any kind. Resetting leads to the initial one. -/
inductive Attained : SpaceView α → Prop
  | initial : Attained initial
  | rotate {v : SpaceView α} (dx dy : α) : Attained v → Attained (v.rotate dx dy)
  | pan {v : SpaceView α} (dx dy : α) : Attained v → Attained (v.panBy dx dy)
  | zoom {v : SpaceView α} (factor : α) (axis : Except Fault ZoomAxis) (autoZ : α → α → Except Fault (Option α))
    (hautoZ : ∀ x y range, autoZ x y = .ok (some range) → 0.0 < range) :
    Attained v → Attained (v.zoom factor axis autoZ).state

/-- The floor is within the limits of a range, which are those of the initial view. -/
structure Ranged (v : SpaceView α) : Prop where
  minRange : v.minRange = 1.0
  minRange_le : v.minRange ≤ v.maxRange
  rangeX : v.minRange ≤ v.rangeX ∧ v.rangeX ≤ v.maxRange
  rangeY : v.minRange ≤ v.rangeY ∧ v.rangeY ≤ v.maxRange
  rangeZ : 0.0 < v.rangeZ

end SpaceView

class ZoomingScalar (α : Type) [Scalar α] : Prop extends DividingScalar α where
  initial_ranged : (SpaceView.initial : SpaceView α).Ranged

instance : ZoomingScalar Float where
  initial_ranged := ⟨rfl, by decide +kernel, by decide +kernel, by decide +kernel, by decide +kernel⟩

instance {α : Type} [ExactScalar α] : ZoomingScalar α where
  initial_ranged := by
    have hpos : @OfScientific.ofScientific α Scalar.toOfScientific 0 true 1 <
        @OfScientific.ofScientific α Scalar.toOfScientific 50 true 1 := by
      rw [Scalar.literal_zero]
      exact Scalar.literal_pos 1 (by decide)
    have hrange : (SpaceView.initial : SpaceView α).rangeX ∈
        Set.Icc SpaceView.initial.minRange SpaceView.initial.maxRange := by
      simp only [SpaceView.initial, ExactScalar.scientific_eq, Set.mem_Icc]
      norm_num
    exact ⟨rfl, hrange.1.trans hrange.2, hrange, hrange, hpos⟩

namespace SpaceView

variable {α : Type}

theorem attained_iff_reachable [ExactScalar α] {v : SpaceView α} : Attained v ↔ Reachable v := by
  constructor
  · intro h
    induction h with
    | initial => exact .refl
    | rotate dx dy _ ih => exact ih.tail (.rotate _ dx dy)
    | pan dx dy _ ih => exact ih.tail (.pan _ dx dy)
    | zoom factor axis autoZ hautoZ _ ih =>
      rw [Scalar.literal_zero] at hautoZ
      exact ih.tail (.zoom _ factor axis autoZ hautoZ)
  · intro h
    induction h with
    | refl => exact .initial
    | tail _ hstep ih =>
      cases hstep with
      | rotate dx dy => exact ih.rotate dx dy
      | pan dx dy => exact ih.pan dx dy
      | zoom factor axis autoZ hautoZ =>
        rw [← Scalar.literal_zero] at hautoZ
        exact ih.zoom factor axis autoZ hautoZ
      | reset => exact .initial

variable [Scalar α]

theorem zoom_range (v : SpaceView α) (factor : α) (axis : Axis) (autoZ : α → α → Except Fault (Option α)) :
    (v.zoom factor (.ok (.along axis)) autoZ).state.range axis =
      if ZoomAxis.isEffective factor then v.clampRange (v.range axis / factor) else v.range axis := by
  unfold zoom
  split
  · cases axis with
    | z => rfl
    | x | y =>
      dsimp only [ZoomAxis.along]
      split <;> rfl
  · rfl

variable [ZoomingScalar α] {v w : SpaceView α}

namespace Ranged

theorem clampRange_within (h : v.Ranged) (range : α) :
    v.minRange ≤ v.clampRange range ∧ v.clampRange range ≤ v.maxRange :=
  Scalar.clamp_within h.minRange_le range

theorem pos_of_minRange_le (h : v.Ranged) {a : α} (ha : v.minRange ≤ a) : 0.0 < a :=
  Scalar.lt_of_lt_of_le DividingScalar.zero_lt_one (h.minRange ▸ ha)

theorem zoomFloor (h : v.Ranged) (factor : α) (axis : ZoomAxis) : (v.zoomFloor factor axis).Ranged := by
  cases axis with
  | free => exact { h with rangeX := h.clampRange_within _, rangeY := h.clampRange_within _ }
  | x => exact { h with rangeX := h.clampRange_within _ }
  | y => exact { h with rangeY := h.clampRange_within _ }
  | z => exact h

theorem mean_pos (h : v.Ranged) : 0.0 < (v.rangeX + v.rangeY) / 2.0 := by
  have hsum : v.rangeX ≤ v.rangeX + v.rangeY :=
    DividingScalar.le_add (h.pos_of_minRange_le h.rangeX.1) (h.pos_of_minRange_le h.rangeY.1)
  exact DividingScalar.half_pos (h.minRange ▸ OrderedScalar.le_trans h.rangeX.1 hsum)

theorem zoomed {factor : α} {autoZ : α → α → Except Fault (Option α)} (h : v.Ranged)
    (hautoZ : ∀ x y range, autoZ x y = .ok (some range) → 0.0 < range) (hstep : Zoomed factor autoZ v w) :
    w.Ranged := by
  cases hstep with
  | value => exact { h with rangeZ := h.pos_of_minRange_le (h.clampRange_within _).1 }
  | floor axis => exact h.zoomFloor factor axis
  | fitted axis range hrange => exact { h.zoomFloor factor axis with rangeZ := hautoZ _ _ range hrange }
  | mean axis => exact { h.zoomFloor factor axis with rangeZ := (h.zoomFloor factor axis).mean_pos }

theorem pos (h : v.Ranged) (axis : Axis) : 0.0 < v.range axis := by
  cases axis with
  | x => exact h.pos_of_minRange_le h.rangeX.1
  | y => exact h.pos_of_minRange_le h.rangeY.1
  | z => exact h.rangeZ

/-- A range is not larger after zooming in, unless it was smaller than any range should be. -/
theorem clampRange_div_le_iff (h : v.Ranged) (axis : Axis) {factor : α} (hfactor : 1.0 < factor) :
    v.clampRange (v.range axis / factor) ≤ v.range axis ↔ v.minRange ≤ v.range axis := by
  refine ⟨OrderedScalar.le_trans (h.clampRange_within _).1, fun hmin => ?_⟩
  have hmax := (StrictlyOrderedScalar.defined_of_le h.minRange_le).2
  have hpos := h.pos axis
  exact Scalar.clamp_le hmin hmax (DividingScalar.div_le hpos hfactor) fun hundefined =>
    DividingScalar.le_of_div_undefined hpos hfactor hundefined hmax

theorem le_clampRange_div_iff (h : v.Ranged) (axis : Axis) {factor : α} (hpos : 0.0 < factor)
    (hfactor : factor < 1.0) :
    v.range axis ≤ v.clampRange (v.range axis / factor) ↔ v.range axis ≤ v.maxRange := by
  refine ⟨fun hle => OrderedScalar.le_trans hle (h.clampRange_within _).2, fun hmax => ?_⟩
  have hmin := (StrictlyOrderedScalar.defined_of_le h.minRange_le).1
  exact Scalar.le_clamp hmin (DividingScalar.le_div (h.pos axis) hpos hfactor) hmax

theorem range_le_self (h : v.Ranged) (axis : Axis) : v.range axis ≤ v.range axis :=
  Scalar.le_refl_of_defined (StrictlyOrderedScalar.defined_of_le (Scalar.le_of_lt (h.pos axis))).2

theorem zoom_in_le_iff (h : v.Ranged) (axis : Axis) {factor : α} (hfactor : 1.0 < factor)
    (autoZ : α → α → Except Fault (Option α)) :
    (v.zoom factor (.ok (.along axis)) autoZ).state.range axis ≤ v.range axis ↔
      (ZoomAxis.isEffective factor = true → v.minRange ≤ v.range axis) := by
  rw [zoom_range]
  split
  · next heffective => exact (h.clampRange_div_le_iff axis hfactor).trans (imp_iff_right heffective).symm
  · next hslack => exact iff_of_true (h.range_le_self axis) fun heffective => absurd heffective hslack

theorem le_zoom_out_iff (h : v.Ranged) (axis : Axis) {factor : α} (hfactor : factor < 1.0)
    (autoZ : α → α → Except Fault (Option α)) :
    v.range axis ≤ (v.zoom factor (.ok (.along axis)) autoZ).state.range axis ↔
      (ZoomAxis.isEffective factor = true → v.range axis ≤ v.maxRange) := by
  rw [zoom_range]
  split
  · next heffective =>
    have hpos : 0.0 < factor := of_decide_eq_true (Bool.and_eq_true_iff.mp heffective).1
    exact (h.le_clampRange_div_iff axis hpos hfactor).trans (imp_iff_right heffective).symm
  · next hslack => exact iff_of_true (h.range_le_self axis) fun heffective => absurd heffective hslack

end Ranged

theorem Attained.ranged (h : Attained v) : v.Ranged := by
  induction h with
  | initial => exact ZoomingScalar.initial_ranged
  | rotate dx dy _ ih => exact { ih with }
  | pan dx dy _ ih => exact { ih with }
  | zoom factor axis autoZ hautoZ _ ih => exact ih.zoomed hautoZ (zoom_zoomed factor axis autoZ _)

/-- What zooming along an axis does to the range of a view that gestures lead to. Along x and y the range is
within the limits, so that zooming in never zooms out and zooming out never zooms in. -/
theorem zoom_range_le_iff (h : Attained v) (factor : α) (axis : Axis)
    (autoZ : α → α → Except Fault (Option α)) :
    let w := (v.zoom factor (.ok (.along axis)) autoZ).state
    (1.0 < factor → (w.range axis ≤ v.range axis ↔
      (ZoomAxis.isEffective factor = true → v.minRange ≤ v.range axis))) ∧
    (factor < 1.0 → (v.range axis ≤ w.range axis ↔
      (ZoomAxis.isEffective factor = true → v.range axis ≤ v.maxRange))) ∧
    (axis ≠ .z → v.minRange ≤ v.range axis ∧ v.range axis ≤ v.maxRange) := by
  intro w
  have hranged := h.ranged
  refine ⟨fun hfactor => hranged.zoom_in_le_iff axis hfactor autoZ,
    fun hfactor => hranged.le_zoom_out_iff axis hfactor autoZ, fun haxis => ?_⟩
  cases axis with
  | x => exact hranged.rangeX
  | y => exact hranged.rangeY
  | z => exact absurd rfl haxis

/-- The initial view zoomed in, its value range fitted to a steep function. -/
def steepView : SpaceView Float :=
  (initial.zoom 2.0 (.ok .free) fun _ _ => .ok (some 300.0)).state

theorem steepView_attained : Attained steepView := by
  refine Attained.initial.zoom 2.0 (.ok .free) _ fun _ _ range h => ?_
  obtain rfl : 300.0 = range := Option.some.inj (Except.ok.inj h)
  decide +kernel

theorem zoom_range_le_iff_steep :
    let w := (steepView.zoom 1.25 (.ok (.along .x)) fun _ _ => .ok none).state
    Attained steepView ∧
    ((1.0 : Float) < 1.25 → (w.range .x ≤ steepView.range .x ↔
      (ZoomAxis.isEffective (1.25 : Float) = true → steepView.minRange ≤ steepView.range .x))) ∧
    ((1.25 : Float) < 1.0 → (steepView.range .x ≤ w.range .x ↔
      (ZoomAxis.isEffective (1.25 : Float) = true → steepView.range .x ≤ steepView.maxRange))) ∧
    (Axis.x ≠ .z → steepView.minRange ≤ steepView.range .x ∧ steepView.range .x ≤ steepView.maxRange) :=
  ⟨steepView_attained, zoom_range_le_iff steepView_attained 1.25 .x _⟩

/-- Zooming out along z makes a value range of 300 the largest one, 50. -/
theorem zoom_out_narrows :
    Attained steepView ∧ (0.5 : Float) < 1.0 ∧
      ¬steepView.range .z ≤ (steepView.zoom 0.5 (.ok (.along .z)) fun _ _ => .ok none).state.range .z :=
  ⟨steepView_attained, by decide +kernel, by decide +kernel⟩

end SpaceView

end FieldPlot.View
