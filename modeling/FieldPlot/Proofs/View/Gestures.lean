import FieldPlot.Proofs.Scalar.Lawful
import FieldPlot.Request
import FieldPlot.View.Plane
import FieldPlot.View.Space

/-! Views that gestures lead to. In exact numbers every range of a view in space stays positive, and the
window of a view in the plane never closes. -/

namespace FieldPlot.View

variable {α : Type}

namespace SpaceView

/-- What a zoom leaves of a view: the value range zoomed, or the floor, to which the value range may be fitted.
A zoom that fails or does nothing is one of the floor alone, at least along z, where there is no floor. -/
inductive Zoomed [Scalar α] (factor : α) (autoZ : α → α → Except Fault (Option α)) (v : SpaceView α) :
    SpaceView α → Prop
  | value : Zoomed factor autoZ v (v.zoomZ factor)
  | floor (axis : ZoomAxis) : Zoomed factor autoZ v (v.zoomFloor factor axis)
  | fitted (axis : ZoomAxis) (range : α)
    (hrange : autoZ (v.zoomFloor factor axis).rangeX (v.zoomFloor factor axis).rangeY = .ok (some range)) :
    Zoomed factor autoZ v { v.zoomFloor factor axis with rangeZ := range }
  | mean (axis : ZoomAxis) :
    Zoomed factor autoZ v
      { v.zoomFloor factor axis with
        rangeZ := ((v.zoomFloor factor axis).rangeX + (v.zoomFloor factor axis).rangeY) / 2.0 }

theorem zoom_zoomed [Scalar α] (factor : α) (axis : Except Fault ZoomAxis)
    (autoZ : α → α → Except Fault (Option α)) (v : SpaceView α) :
    Zoomed factor autoZ v (v.zoom factor axis autoZ).state := by
  unfold zoom
  split
  · split
    · exact .floor .z
    · exact .value
    · next axis _ =>
      dsimp only
      split
      · exact .floor axis
      · next range hrange => exact .fitted axis range hrange
      · dsimp only [Step.done]
        split
        · exact .mean axis
        · exact .floor axis
  · exact .floor .z

/-- One gesture, carried out as far as it goes. A value range that fits the new floor is positive. -/
inductive Gesture [ExactScalar α] : SpaceView α → SpaceView α → Prop
  | rotate (v : SpaceView α) (dx dy : α) : Gesture v (v.rotate dx dy)
  | pan (v : SpaceView α) (dx dy : α) : Gesture v (v.panBy dx dy)
  | zoom (v : SpaceView α) (factor : α) (axis : Except Fault ZoomAxis)
    (autoZ : α → α → Except Fault (Option α))
    (hautoZ : ∀ x y range, autoZ x y = .ok (some range) → 0 < range) :
    Gesture v (v.zoom factor axis autoZ).state
  | reset (v : SpaceView α) : Gesture v initial

abbrev Reachable [ExactScalar α] : SpaceView α → Prop :=
  Relation.ReflTransGen Gesture initial

/-- A view whose ranges are positive and whose limits keep them so. -/
structure Sound [ExactScalar α] (v : SpaceView α) : Prop where
  rangeX : 0 < v.rangeX
  rangeY : 0 < v.rangeY
  rangeZ : 0 < v.rangeZ
  minRange : 0 < v.minRange

variable [ExactScalar α] {v w : SpaceView α}

theorem initial_sound : (initial : SpaceView α).Sound :=
  ⟨Scalar.literal_pos 1 (by decide), Scalar.literal_pos 1 (by decide), Scalar.literal_pos 1 (by decide),
    Scalar.literal_pos 1 (by decide)⟩

namespace Sound

theorem scales_returns (h : v.Sound) : Returns v.scales :=
  (Scalar.divide_returns _ h.rangeX.ne').bind fun _ _ => (Scalar.divide_returns _ h.rangeY.ne').bind fun _ _ =>
    (Scalar.divide_returns _ h.rangeZ.ne').bind fun _ _ => .ok _

theorem clampRange_pos (h : v.Sound) (range : α) : 0 < v.clampRange range :=
  Scalar.larger_pos h.minRange _

theorem zoomX (h : v.Sound) (factor : α) : (v.zoomX factor).Sound :=
  { h with rangeX := h.clampRange_pos _ }

theorem zoomY (h : v.Sound) (factor : α) : (v.zoomY factor).Sound :=
  { h with rangeY := h.clampRange_pos _ }

theorem zoomZ (h : v.Sound) (factor : α) : (v.zoomZ factor).Sound :=
  { h with rangeZ := h.clampRange_pos _ }

theorem zoomFloor (h : v.Sound) (factor : α) (axis : ZoomAxis) : (v.zoomFloor factor axis).Sound := by
  cases axis with
  | free => exact (h.zoomX factor).zoomY factor
  | x => exact h.zoomX factor
  | y => exact h.zoomY factor
  | z => exact h

theorem zoomed {factor : α} {autoZ : α → α → Except Fault (Option α)} (h : v.Sound)
    (hautoZ : ∀ x y range, autoZ x y = .ok (some range) → 0 < range) (hstep : Zoomed factor autoZ v w) :
    w.Sound := by
  cases hstep with
  | value => exact h.zoomZ factor
  | floor axis => exact h.zoomFloor factor axis
  | fitted axis range hrange => exact { h.zoomFloor factor axis with rangeZ := hautoZ _ _ range hrange }
  | mean axis =>
    have hfloor := h.zoomFloor factor axis
    have htwo := Scalar.literal_pos (α := α) 1 (m := 20) (by decide)
    exact { hfloor with rangeZ := div_pos (add_pos hfloor.rangeX hfloor.rangeY) htwo }

theorem gesture (h : v.Sound) (hstep : Gesture v w) : w.Sound := by
  cases hstep with
  | rotate dx dy => exact { h with }
  | pan dx dy => exact { h with }
  | zoom factor axis autoZ hautoZ => exact h.zoomed hautoZ (zoom_zoomed factor axis autoZ v)
  | reset => exact initial_sound

end Sound

theorem Reachable.sound (h : Reachable v) : v.Sound := by
  induction h with
  | refl => exact initial_sound
  | tail _ hstep hsound => exact hsound.gesture hstep

end SpaceView

namespace PlaneView

/-- One gesture that is carried out. Dragging on a canvas without a width or a height is not. -/
inductive Gesture [ExactScalar α] : PlaneView α → PlaneView α → Prop
  | pan {v w : PlaneView α} (dx dy width height : α) (hpan : panBy dx dy width height v = .ok w) :
    Gesture v w
  | zoom {v w : PlaneView α} (factor : α) (axis : Except Fault ZoomAxis) (focus : Option (α × α))
    (hzoom : zoom factor axis focus v = .ok w) : Gesture v w
  | reset (v : PlaneView α) : Gesture v initial

abbrev Reachable [ExactScalar α] : PlaneView α → Prop :=
  Relation.ReflTransGen Gesture initial

/-- A window that shows something in each direction. -/
structure Sound [ExactScalar α] (v : PlaneView α) : Prop where
  xMin_lt : v.xMin < v.xMax
  yMin_lt : v.yMin < v.yMax

variable [ExactScalar α] {v w : PlaneView α}

theorem initial_sound : (initial : PlaneView α).Sound := by
  have hpos := Scalar.literal_pos (α := α) 1 (m := 50) (by decide)
  have hlt := (neg_neg_of_pos hpos).trans hpos
  exact ⟨hlt, hlt⟩

/-- Moving both ends away from a point, or towards it, by the same factor. -/
theorem zoomed_lt {lo hi factor : α} (hlt : lo < hi) (hfactor : 0 < factor) (focus : α) :
    focus - (focus - lo) / factor < focus + (hi - focus) / factor := by
  have hgap : focus + (hi - focus) / factor - (focus - (focus - lo) / factor) = (hi - lo) / factor := by ring
  exact sub_pos.mp (hgap ▸ div_pos (sub_pos.mpr hlt) hfactor)

theorem factor_pos {factor : α} (h : ZoomAxis.isEffective factor = true) : 0 < factor := by
  rw [ZoomAxis.isEffective, Bool.and_eq_true, decide_eq_true_iff, Scalar.literal_zero] at h
  exact h.1

namespace Sound

theorem zoomX (h : v.Sound) {factor : α} (hfactor : 0 < factor) (focus : α) :
    (v.zoomX factor focus).Sound :=
  ⟨zoomed_lt h.xMin_lt hfactor focus, h.yMin_lt⟩

theorem zoomY (h : v.Sound) {factor : α} (hfactor : 0 < factor) (focus : α) :
    (v.zoomY factor focus).Sound :=
  ⟨h.xMin_lt, zoomed_lt h.yMin_lt hfactor focus⟩

theorem zoom (h : v.Sound) {factor : α} {axis : Except Fault ZoomAxis} {focus : Option (α × α)}
    (hw : PlaneView.zoom factor axis focus v = .ok w) : w.Sound := by
  unfold PlaneView.zoom at hw
  split at hw
  · next hfactor =>
    have hfactor := factor_pos hfactor
    obtain ⟨axis, -, hw⟩ := bind_eq_ok.mp hw
    cases axis <;> obtain rfl := pure_eq_ok.mp hw
    · exact (h.zoomX hfactor _).zoomY hfactor _
    · exact h.zoomX hfactor _
    · exact h.zoomY hfactor _
    · exact h.zoomY hfactor _
  · exact Except.ok.inj hw ▸ h

theorem panBy (h : v.Sound) {dx dy width height : α}
    (hw : PlaneView.panBy dx dy width height v = .ok w) : w.Sound := by
  obtain ⟨shiftX, -, hw⟩ := bind_eq_ok.mp hw
  obtain ⟨shiftY, -, hw⟩ := bind_eq_ok.mp hw
  obtain rfl := pure_eq_ok.mp hw
  exact ⟨add_lt_add_left h.xMin_lt shiftX, add_lt_add_left h.yMin_lt shiftY⟩

theorem gesture (h : v.Sound) (hstep : Gesture v w) : w.Sound := by
  cases hstep with
  | pan dx dy width height hpan => exact h.panBy hpan
  | zoom factor axis focus hzoom => exact h.zoom hzoom
  | reset => exact initial_sound

theorem spanX_pos (h : v.Sound) : 0 < v.spanX :=
  sub_pos.mpr h.xMin_lt

theorem spanY_pos (h : v.Sound) : 0 < v.spanY :=
  sub_pos.mpr h.yMin_lt

end Sound

theorem Reachable.sound (h : Reachable v) : v.Sound := by
  induction h with
  | refl => exact initial_sound
  | tail _ hstep hsound => exact hsound.gesture hstep

end PlaneView

end FieldPlot.View
