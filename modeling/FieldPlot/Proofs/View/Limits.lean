import FieldPlot.Proofs.Scalar.Real
import FieldPlot.Proofs.View.Gestures
import FieldPlot.Proofs.View.Parameters

/-! What gestures leave of a view in space. The elevation stays short of a right angle, the floor between the
smallest and the largest range; the value range, which can be fitted to anything, at least stays positive. -/

namespace FieldPlot

namespace View.SpaceView

variable {α : Type} [ExactScalar α] {v w : SpaceView α}

/-- What holds of every view that gestures lead to. -/
structure WithinLimits (v : SpaceView α) : Prop where
  rotationX : v.rotationX ∈ Set.Icc (-maxElevation) maxElevation
  rangeX : v.rangeX ∈ Set.Icc v.minRange v.maxRange
  rangeY : v.rangeY ∈ Set.Icc v.minRange v.maxRange
  unmoved : ∀ p : Parameter, ¬p.IsMoved → p.get v = p.get initial

theorem maxElevation_ge (hpi : 3 < (Scalar.pi : α)) : (1 : α) ≤ maxElevation := by
  have htwo : @OfScientific.ofScientific α Scalar.toOfScientific 20 true 1 = 2 := by
    rw [ExactScalar.scientific_eq]
    norm_num
  have htenth : @OfScientific.ofScientific α Scalar.toOfScientific 1 true 1 = 1 / 10 := by
    rw [ExactScalar.scientific_eq]
    norm_num
  rw [maxElevation, htwo, htenth]
  linarith

theorem initial_withinLimits (hpi : 3 < (Scalar.pi : α)) : (initial : SpaceView α).WithinLimits := by
  have hmax := maxElevation_ge hpi
  have hrotation : (initial : SpaceView α).rotationX = 6 / 10 := by
    rw [initial, ExactScalar.scientific_eq]
    norm_num
  have hrange : (initial : SpaceView α).rangeX ∈ Set.Icc initial.minRange initial.maxRange := by
    simp only [initial, ExactScalar.scientific_eq, Set.mem_Icc]
    norm_num
  refine ⟨?_, hrange, hrange, fun _ _ => rfl⟩
  rw [hrotation]
  constructor <;> linarith

namespace WithinLimits

theorem minRange_le (h : v.WithinLimits) : v.minRange ≤ v.maxRange :=
  h.rangeX.1.trans h.rangeX.2

theorem rotate (hpi : 3 < (Scalar.pi : α)) (h : v.WithinLimits) (dx dy : α) :
    (v.rotate dx dy).WithinLimits where
  rotationX := Scalar.clamp_mem (by linarith [maxElevation_ge hpi]) _
  rangeX := h.rangeX
  rangeY := h.rangeY
  unmoved p hp := (rotate_unmoved dx dy v hp).trans (h.unmoved p hp)

theorem panBy (h : v.WithinLimits) (dx dy : α) : (v.panBy dx dy).WithinLimits where
  rotationX := h.rotationX
  rangeX := h.rangeX
  rangeY := h.rangeY
  unmoved p hp := (panBy_unmoved dx dy v hp).trans (h.unmoved p hp)

theorem zoomFloor (h : v.WithinLimits) (factor : α) (axis : ZoomAxis) : (v.zoomFloor factor axis).WithinLimits := by
  have hrange (range : α) : v.clampRange range ∈ Set.Icc v.minRange v.maxRange := Scalar.clamp_mem h.minRange_le _
  have hunmoved (p : Parameter) (hp : ¬p.IsMoved) : p.get (v.zoomFloor factor axis) = p.get initial :=
    (zoomFloor_unmoved factor axis v hp).trans (h.unmoved p hp)
  cases axis with
  | free => exact ⟨h.rotationX, hrange _, hrange _, hunmoved⟩
  | x => exact ⟨h.rotationX, hrange _, h.rangeY, hunmoved⟩
  | y => exact ⟨h.rotationX, h.rangeX, hrange _, hunmoved⟩
  | z => exact h

theorem zoomed {factor : α} {autoZ : α → α → Except Fault (Option α)} (h : v.WithinLimits)
    (hstep : Zoomed factor autoZ v w) : w.WithinLimits := by
  have hrange {v : SpaceView α} (h : v.WithinLimits) (range : α) : { v with rangeZ := range }.WithinLimits :=
    { h with unmoved := fun p hp => (rangeZ_unmoved range v hp).trans (h.unmoved p hp) }
  cases hstep with
  | value => exact hrange h _
  | floor axis => exact h.zoomFloor factor axis
  | fitted axis range => exact hrange (h.zoomFloor factor axis) range
  | mean axis => exact hrange (h.zoomFloor factor axis) _

theorem gesture (hpi : 3 < (Scalar.pi : α)) (h : v.WithinLimits) (hstep : Gesture v w) : w.WithinLimits := by
  cases hstep with
  | rotate dx dy => exact h.rotate hpi dx dy
  | pan dx dy => exact h.panBy dx dy
  | zoom factor axis autoZ => exact h.zoomed (zoom_zoomed factor axis autoZ v)
  | reset => exact initial_withinLimits hpi

end WithinLimits

theorem Reachable.withinLimits (hpi : 3 < (Scalar.pi : α)) (h : Reachable v) : v.WithinLimits := by
  induction h with
  | refl => exact initial_withinLimits hpi
  | tail _ hstep ih => exact ih.gesture hpi hstep

/-- Whatever gestures have been made, the view is within its limits, its value range is positive and every range
has a scale. -/
theorem reachable_within_limits (hpi : 3 < (Scalar.pi : α)) (h : Reachable v) :
    v.WithinLimits ∧ 0 < v.rangeZ ∧ Returns v.scales := by
  have hsound := h.sound
  exact ⟨h.withinLimits hpi, hsound.rangeZ, hsound.scales_returns⟩

/-- Turned over, and zoomed in to a value range beyond the largest one. -/
theorem reachable_within_limits_turned :
    let v := (((initial : SpaceView ℝ).rotate 30 1000).zoom 2 (.ok .free) fun _ _ => .ok (some 120)).state
    3 < (Scalar.pi : ℝ) ∧ Reachable v ∧ v.WithinLimits ∧ 0 < v.rangeZ ∧ Returns v.scales := by
  intro v
  have hpi : 3 < (Scalar.pi : ℝ) := Real.pi_gt_three
  have hrange : ∀ x y range : ℝ, (Except.ok (some 120) : Except Fault (Option ℝ)) = .ok (some range) → 0 < range := by
    intro _ _ range h
    cases h
    norm_num
  have hreached : Reachable v := (Relation.ReflTransGen.single (.rotate _ 30 1000)).tail (.zoom _ _ _ _ hrange)
  exact ⟨hpi, hreached, reachable_within_limits hpi hreached⟩

end View.SpaceView

end FieldPlot
