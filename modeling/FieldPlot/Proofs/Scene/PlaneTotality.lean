import FieldPlot.Proofs.Sampling.Totality
import FieldPlot.Proofs.Scene.Totality
import FieldPlot.Proofs.View.Gestures
import FieldPlot.Scene.Plane

/-! A scene in the plane is built without a fault, emitter by emitter. The window is open in both
directions, the spacings of its grid lines are positive, and what else is divided by counts as 1 where it
is zero. -/

namespace FieldPlot.Scene.PlaneScene

open Vectors (Vec)
open View (PlaneView)

variable {α : Type} [LawfulScalar α]

/-- Everything a scene in the plane takes for granted. -/
structure Sound (s : PlaneScene α) : Prop where
  evaluates : Evaluates s.request s.samples
  view : PlaneView.Sound s.view
  palette : s.palette.Sound
  detail : s.detail.Sound
  canvas : s.canvas.Sound

theorem nonzero_ne_zero (a : α) : nonzero a ≠ 0 := by
  unfold nonzero
  split
  · exact (Scalar.literal_pos 1 (by decide)).ne'
  · next hne => exact fun hzero => hne (Scalar.beq_zero_iff.mpr hzero)

theorem multipleBelow_returns (a : α) {spacing : α} (hspacing : 0 < spacing) :
    Returns (multipleBelow a spacing) :=
  (Scalar.divide_returns _ hspacing.ne').bind fun _ _ => (Scalar.whole_returns _ _).bind fun _ _ => .ok _

theorem multipleAbove_returns (a : α) {spacing : α} (hspacing : 0 < spacing) :
    Returns (multipleAbove a spacing) :=
  (Scalar.divide_returns _ hspacing.ne').bind fun _ _ => (Scalar.whole_returns _ _).bind fun _ _ => .ok _

theorem marks_returns (lo hi : α) {spacing : α} (hspacing : 0 < spacing) : Returns (marks lo hi spacing) :=
  (multipleAbove_returns _ hspacing).bind fun _ _ => (Sampling.steps_returns _ _ _).bind fun _ _ => .ok _

theorem isRoomy_returns (spacing size : α) {span : α} (hspan : span ≠ 0) :
    Returns (isRoomy spacing size span) :=
  (Scalar.divide_returns _ hspan).bind fun _ _ => .ok _

theorem spacingX_pos (s : PlaneScene α) : ∃ spacing, s.spacingX = .ok spacing ∧ 0 < spacing :=
  Sampling.gridSpacing_pos _ (by decide)

theorem spacingY_pos (s : PlaneScene α) : ∃ spacing, s.spacingY = .ok spacing ∧ 0 < spacing :=
  Sampling.gridSpacing_pos _ (by decide)

variable {s : PlaneScene α} (h : s.Sound)
include h

theorem pixel_returns (x y : α) : Returns (s.pixel x y) :=
  (Scalar.divide_returns _ h.view.spanX_pos.ne').bind fun _ _ =>
    (Scalar.divide_returns _ h.view.spanY_pos.ne').bind fun _ _ => .ok _

theorem modelLine_returns (stroke : Stroke α) (role : Role) (p q : α × α) :
    Returns (s.modelLine stroke role p q) :=
  (pixel_returns h _ _).bind fun _ _ => (pixel_returns h _ _).bind fun _ _ =>
    Canvas.line_returns h.canvas _ _ _ _ _

/-! ### Grid, axes and numbers -/

theorem columns_returns (stroke : Stroke α) (role : Role) (start spacing : α) :
    Returns (s.columns stroke role start spacing) :=
  (Sampling.steps_returns _ _ _).bind fun _ _ => .flatMapM fun _ _ => modelLine_returns h _ _ _ _

theorem rows_returns (stroke : Stroke α) (role : Role) (start spacing : α) :
    Returns (s.rows stroke role start spacing) :=
  (Sampling.steps_returns _ _ _).bind fun _ _ => .flatMapM fun _ _ => modelLine_returns h _ _ _ _

theorem grid_returns : Returns s.grid := by
  refine .bind_of_exists s.spacingX_pos fun spacingX hspacingX => ?_
  refine .bind_of_exists s.spacingY_pos fun spacingY hspacingY => ?_
  refine (multipleBelow_returns _ hspacingX).bind fun _ _ => ?_
  refine (multipleBelow_returns _ hspacingY).bind fun _ _ => ?_
  refine (isRoomy_returns _ _ (nonzero_ne_zero _)).bind fun _ _ => ?_
  refine .branch (fun _ => columns_returns h _ _ _ _) (fun _ => .ok _) fun _ => ?_
  refine (isRoomy_returns _ _ (nonzero_ne_zero _)).bind fun _ _ => ?_
  refine .branch (fun _ => rows_returns h _ _ _ _) (fun _ => .ok _) fun _ => ?_
  exact (columns_returns h _ _ _ _).bind fun _ _ => (rows_returns h _ _ _ _).bind fun _ _ => .ok _

theorem axisLine_returns (p q : α × α) : Returns (s.axisLine p q) :=
  (modelLine_returns h _ _ _ _).bind fun _ _ => (modelLine_returns h _ _ _ _).bind fun _ _ => .ok _

theorem ticksX_returns : Returns s.ticksX := by
  refine (pixel_returns h _ _).bind fun _ _ => .bind_of_exists s.spacingX_pos fun _ hspacing => ?_
  exact (marks_returns _ _ hspacing).bind fun _ _ => .flatMapM fun _ _ => (pixel_returns h _ _).bind fun _ _ =>
    Canvas.line_returns h.canvas _ _ _ _ _

theorem ticksY_returns : Returns s.ticksY := by
  refine (pixel_returns h _ _).bind fun _ _ => .bind_of_exists s.spacingY_pos fun _ hspacing => ?_
  exact (marks_returns _ _ hspacing).bind fun _ _ => .flatMapM fun _ _ => (pixel_returns h _ _).bind fun _ _ =>
    Canvas.line_returns h.canvas _ _ _ _ _

theorem axes_returns : Returns s.axes := by
  refine .branch (fun _ => axisLine_returns h _ _) (fun _ => .ok _) fun _ => ?_
  refine .branch (fun _ => axisLine_returns h _ _) (fun _ => .ok _) fun _ => ?_
  refine .branch (fun _ => ticksX_returns h) (fun _ => .ok _) fun _ => ?_
  exact .branch (fun _ => ticksY_returns h) (fun _ => .ok _) fun _ => .ok _

theorem labelsX_returns : Returns s.labelsX := by
  refine (pixel_returns h _ _).bind fun _ _ => .bind_of_exists s.spacingX_pos fun _ hspacing => ?_
  exact (marks_returns _ _ hspacing).bind fun _ _ => .mapM fun _ _ =>
    (pixel_returns h _ _).bind fun _ _ => .ok _

theorem labelsY_returns : Returns s.labelsY := by
  refine (pixel_returns h _ _).bind fun _ _ => .bind_of_exists s.spacingY_pos fun _ hspacing => ?_
  exact (marks_returns _ _ hspacing).bind fun _ _ => .mapM fun _ _ =>
    (pixel_returns h _ _).bind fun _ _ => .ok _

theorem labels_returns : Returns s.labels :=
  .branch (fun _ => labelsX_returns h) (fun _ => .ok _) fun _ =>
    .branch (fun _ => labelsY_returns h) (fun _ => .ok _) fun _ => .ok _

/-! ### Heatmap and iso-lines -/

omit h in
theorem shownScalar_returns (hsamples : Evaluates s.request s.samples) (p : Point α) :
    Returns (s.shownScalar p) := by
  unfold shownScalar
  split
  · next hvector => exact (hsamples.vector hvector p).bind fun _ _ => .ok _
  · next hscalar => exact hsamples.scalar (Bool.eq_false_iff.mpr hscalar) p

theorem heatmapTiles_returns {cells : ℤ} (hcells : 0 < cells) (lo hi : α)
    (values : List (List (Option α))) : Returns (s.heatmapTiles cells lo hi values) := by
  have htotal : (cells : α) ≠ 0 := Int.cast_ne_zero.mpr hcells.ne'
  rw [heatmapTiles, Scalar.ofInt?_eq, ok_bind]
  refine (Scalar.divide_returns _ htotal).bind fun _ _ => (Scalar.divide_returns _ htotal).bind fun _ _ => ?_
  refine h.palette.heatmapOpacity.bind fun _ _ => .flatMapM fun column _ => .flatMapM fun entry _ => ?_
  dsimp only
  split
  · exact .ok []
  · exact (normalise_returns _ _ _).bind fun _ _ => (Palette.jet_returns h.palette _).bind fun _ _ => .ok _

theorem heatmap_returns : Returns s.heatmap := by
  unfold heatmap
  split
  · refine .bind_of_exists h.detail.heatmapGrid fun cells hcells => ?_
    refine (Sampling.heatmap_returns (shownScalar_returns h.evaluates) _ _).bind fun _ _ => ?_
    dsimp only
    split
    · exact (heatmapTiles_returns h hcells _ _ _).bind fun _ _ => .ok _
    · exact .ok []
  · exact .ok []

theorem contours_returns : Returns s.contours := by
  unfold contours
  split
  · refine .bind_of_exists h.detail.surfaceGrid fun cells hcells => ?_
    refine (Sampling.windowGrid_returns (shownScalar_returns h.evaluates) _ hcells.le).bind fun grid _ => ?_
    split
    · exact .ok []
    · refine .bind_of_exists h.detail.contourLevels fun _ _ => ?_
      refine (Sampling.contourLevels_returns _ _ _).bind fun _ _ => ?_
      refine .flatMapM fun level _ => (normalise_returns _ _ _).bind fun _ _ => ?_
      refine (Palette.jet_returns h.palette _).bind fun _ _ => ?_
      exact .bind ⟨_, Sampling.Grid.contour_eq grid level⟩ fun _ _ => .flatMapM fun _ _ =>
        modelLine_returns h _ _ _ _
  · exact .ok []

/-! ### Curves, dots and arrows -/

theorem curve_returns (hscalar : s.request.field.isSome = false) : Returns s.curve := by
  refine .bind_of_exists h.detail.curveSteps fun steps hsteps => ?_
  refine (Sampling.curve_returns (h.evaluates.scalar hscalar) _ _ _ hsteps.ne' _).bind fun _ _ => ?_
  exact .flatMapM fun _ _ => .bind (.mapM fun _ _ => (pixel_returns h _ _).bind fun _ _ => .ok _) fun _ _ =>
    Canvas.path_returns h.canvas _ _ _

omit h in
theorem sites_returns {count : ℤ} (hcount : 0 < count) : Returns (s.sites count) := by
  have htotal : (count : α) ≠ 0 := Int.cast_ne_zero.mpr hcount.ne'
  rw [sites, if_neg hcount.le.not_gt, Scalar.ofInt?_eq, ok_bind]
  exact .flatMapM fun _ _ => .mapM fun _ _ => (Scalar.divide_returns _ htotal).bind fun _ _ =>
    (Scalar.divide_returns _ htotal).bind fun _ _ => .ok _

omit h in
theorem readings_returns {f : Point α → Except Fault (Option α)} (hf : ∀ p, Returns (f p)) {count : ℤ}
    (hcount : 0 < count) : Returns (s.readings f count) :=
  (sites_returns hcount).bind fun _ _ => Sampling.collect_returns fun _ => (hf _).bind fun _ _ => .ok _

theorem dots_returns (lo hi : α) {count : ℤ} (hcount : 0 < count) (readings : List (Sampling.Reading α)) :
    Returns (s.dots lo hi count readings) := by
  rw [dots, Scalar.ofInt?_eq, ok_bind]
  refine (Scalar.divide_returns _ (Int.cast_ne_zero.mpr hcount.ne')).bind fun _ _ => ?_
  refine .bind (.mapM fun _ _ => (normalise_returns _ _ _).bind fun _ _ => ?_) fun _ _ => .ok _
  exact (Palette.jet_returns h.palette _).bind fun _ _ => (pixel_returns h _ _).bind fun _ _ => .ok _

theorem scalarDots_returns (hscalar : s.request.field.isSome = false) : Returns s.scalarDots := by
  refine .bind_of_exists h.detail.planeDots fun count hcount => ?_
  refine (readings_returns (h.evaluates.scalar hscalar) hcount).bind fun _ _ => ?_
  split
  · exact .ok []
  · exact dots_returns h _ _ hcount _

theorem magnitudeDots_returns (hvector : s.request.field.isSome = true) : Returns s.magnitudeDots := by
  refine .bind_of_exists h.detail.planeDots fun count hcount => ?_
  have hmagnitude (p : Point α) : Returns (do return (← s.samples.vector p).magnitude?) :=
    (h.evaluates.vector hvector p).bind fun _ _ => .ok _
  refine (readings_returns hmagnitude hcount).bind fun _ _ => ?_
  split
  · exact .ok []
  · exact dots_returns h _ _ hcount _

theorem arrow_returns (length : α) {largest : α} (hlargest : largest ≠ 0) (p : Point α)
    (v : Vec (Option α)) : Returns (s.arrow length largest p v) := by
  unfold arrow
  split
  · exact .ok []
  · next w magnitude _ _ =>
    split
    · exact .ok []
    · next hle =>
      have hpos : 0 < magnitude := Sampling.threshold_pos.trans_le (not_lt.mp hle)
      refine (Scalar.divide_returns _ hlargest).bind fun _ _ => ?_
      refine (Palette.jet_returns h.palette _).bind fun _ _ => ?_
      refine (pixel_returns h _ _).bind fun _ _ => (Scalar.divide_returns _ hpos.ne').bind fun _ _ => ?_
      refine (Scalar.divide_returns _ hpos.ne').bind fun _ _ => ?_
      refine (Canvas.line_returns h.canvas _ _ _ _ _).bind fun _ _ => ?_
      split
      · exact .ok _
      · exact (Canvas.arrowHead_returns h.canvas _ _ _ _ _).bind fun _ _ => .ok _

theorem arrows_returns (hvector : s.request.field.isSome = true) : Returns s.arrows := by
  refine .bind_of_exists h.detail.planeArrows fun count hcount => ?_
  rw [Scalar.ofInt?_eq, ok_bind]
  refine (Scalar.divide_returns _ (Int.cast_ne_zero.mpr hcount.ne')).bind fun _ _ => ?_
  refine (sites_returns hcount).bind fun _ _ => ?_
  refine .bind (.mapM fun _ _ => (h.evaluates.vector hvector _).bind fun _ _ => .ok _) fun _ _ => ?_
  exact .bind (.flatMapM fun _ _ => arrow_returns h _ (nonzero_ne_zero _) _ _) fun _ _ => .ok _

/-! ### The whole scene -/

theorem content_returns : Returns s.content := by
  unfold content
  split
  · next hvector => exact magnitudeDots_returns h hvector
  · next hscalar => exact scalarDots_returns h hscalar
  · next hvector => exact arrows_returns h hvector
  · next hscalar => exact curve_returns h hscalar

theorem build_returns : Returns s.build := by
  refine (grid_returns h).bind fun _ _ => (axes_returns h).bind fun _ _ => ?_
  refine .branch (fun _ => heatmap_returns h) (fun _ => .ok _) fun _ => (content_returns h).bind fun _ _ => ?_
  exact .branch (fun _ => contours_returns h) (fun _ => .ok _) fun _ => (labels_returns h).bind fun _ _ => .ok _

end FieldPlot.Scene.PlaneScene
