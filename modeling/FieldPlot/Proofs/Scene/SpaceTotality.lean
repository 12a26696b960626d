import FieldPlot.Proofs.Sampling.Totality
import FieldPlot.Proofs.Scene.Farthest
import FieldPlot.Proofs.Scene.Totality
import FieldPlot.Proofs.View.Gestures
import FieldPlot.Scene.Space

/-! A scene in space is built without a fault, emitter by emitter. The ranges of the view are positive, a
dot has an image only outside of the plane of the eye, and an arrow has a magnitude. -/

namespace FieldPlot.Scene

open Sampling (Grid Reading Arrow)
open View (SpaceView)

variable {α : Type} [LawfulScalar α]

theorem rotated_returns (p : Point α) (elevation azimuth : α) : Returns (p.rotated elevation azimuth) :=
  .bind ((Scalar.turn_returns _).bind fun _ _ => .ok _) fun _ _ =>
    (Scalar.turn_returns _).bind fun _ _ => .ok _

theorem place_returns (v : SpaceView α) (width height : α) (p : Point α) :
    Returns (place v width height p) :=
  (rotated_returns _ _ _).bind fun _ _ => .ok _

theorem focal_ne_zero_of_image {v : SpaceView α} {width height : α} {p : Point α} {placed : Placed α}
    {q : Pixel α} (hplaced : place v width height p = .ok placed) (hq : placed.image = some q) :
    v.focalLength + placed.point.y ≠ 0 := by
  obtain ⟨turned, -, h⟩ := bind_eq_ok.mp hplaced
  obtain rfl := pure_eq_ok.mp h
  intro hzero
  have heye : ((v.lens width height).focalLength + turned.y == _) = true := Scalar.beq_zero_iff.mpr hzero
  rw [Lens.image?, if_pos heye] at hq
  cases hq

theorem quads_returns {v : SpaceView α} (h : v.Sound) (g : Grid α) (width height : α) :
    Returns (quads g v width height) :=
  h.scales_returns.bind fun _ _ => .bind (.mapM fun _ _ => .bind (.mapM fun _ _ => place_returns _ _ _ _)
    fun _ _ => .ok _) fun _ _ => .ok _

namespace SpaceScene

/-- Everything a scene in space takes for granted. -/
structure Sound (s : SpaceScene α) : Prop where
  evaluates : Evaluates s.request s.samples
  view : s.view.Sound
  palette : s.palette.Sound
  detail : s.detail.Sound
  canvas : s.canvas.Sound

variable {s : SpaceScene α} (h : s.Sound)
include h

theorem placeModel_returns (p : Point α) : Returns (s.placeModel p) :=
  h.view.scales_returns.bind fun _ _ => place_returns _ _ _ _

theorem modelLine_returns (stroke : Stroke α) (role : Role) (p q : Point α) :
    Returns (s.modelLine stroke role p q) :=
  (placeModel_returns h _).bind fun _ _ => (placeModel_returns h _).bind fun _ _ =>
    Canvas.line_returns h.canvas _ _ _ _ _

/-! ### The frame -/

theorem floorLines_returns (stroke : Stroke α) (role : Role) (spacingX spacingY : α) :
    Returns (s.floorLines stroke role spacingX spacingY) :=
  (Sampling.steps_returns _ _ _).bind fun _ _ =>
    .bind (.flatMapM fun _ _ => modelLine_returns h _ _ _ _) fun _ _ =>
      (Sampling.steps_returns _ _ _).bind fun _ _ =>
        .bind (.flatMapM fun _ _ => modelLine_returns h _ _ _ _) fun _ _ => .ok _

theorem floorGrid_returns : Returns s.floorGrid :=
  (Sampling.floorSpacing_returns _).bind fun _ _ => (Sampling.floorSpacing_returns _).bind fun _ _ =>
    (floorLines_returns h _ _ _ _).bind fun _ _ => (floorLines_returns h _ _ _ _).bind fun _ _ => .ok _

theorem axisHead_returns (colour : List Char) (origin tip : Pixel α) :
    Returns (s.axisHead colour origin tip) := by
  unfold axisHead
  dsimp only
  split
  · next hlength =>
    rw [Scalar.literal_zero] at hlength
    exact (Scalar.divide_returns _ hlength.ne').bind fun _ _ =>
      (Scalar.divide_returns _ hlength.ne').bind fun _ _ => Canvas.path_returns h.canvas _ _ _
  · exact .ok []

theorem axisTip_returns (axis : Vectors.Axis) (origin tip : Option (Pixel α)) :
    Returns (s.axisTip axis origin tip) := by
  unfold axisTip
  split
  · dsimp only
    split
    · exact (axisHead_returns h _ _ _).bind fun _ _ => .ok _
    · exact .ok []
  · exact .ok []

theorem tick_returns (axis : Vectors.Axis) (scale t : α) : Returns (s.tick axis scale t) := by
  refine (place_returns _ _ _ _).bind fun foot _ => ?_
  split
  · refine .bind (.flatMapM fun _ _ => (place_returns _ _ _ _).bind fun _ _ =>
      Canvas.line_returns h.canvas _ _ _ _ _) fun strokes _ => ?_
    refine (place_returns _ _ _ _).bind fun label _ => ?_
    split
    · split
      · exact .ok _
      · exact .ok _
    · exact .ok _
  · exact .ok []

theorem axis_returns (scale : Point α) (origin : Option (Pixel α)) (axis : Vectors.Axis) :
    Returns (s.axis scale origin axis) := by
  refine (place_returns _ _ _ _).bind fun _ _ => (place_returns _ _ _ _).bind fun _ _ => ?_
  refine (Canvas.line_returns h.canvas _ _ _ _ _).bind fun _ _ => ?_
  refine (Canvas.line_returns h.canvas _ _ _ _ _).bind fun _ _ => (place_returns _ _ _ _).bind fun _ _ => ?_
  refine (axisTip_returns h _ _ _).bind fun _ _ => (Sampling.floorSpacing_returns _).bind fun _ _ => ?_
  refine (Sampling.steps_returns _ _ _).bind fun _ _ => .bind (.flatMapM fun t _ => ?_) fun _ _ => .ok _
  split
  · exact .ok []
  · exact tick_returns h _ _ _

theorem axes_returns : Returns s.axes :=
  h.view.scales_returns.bind fun _ _ => (placeModel_returns h _).bind fun _ _ =>
    .flatMapM fun _ _ => axis_returns h _ _ _

theorem boundary_returns : Returns s.boundary :=
  (placeModel_returns h _).bind fun _ _ => (placeModel_returns h _).bind fun _ _ =>
    (placeModel_returns h _).bind fun _ _ => (placeModel_returns h _).bind fun _ _ =>
      .flatMapM fun _ _ => Canvas.line_returns h.canvas _ _ _ _ _

theorem frame_returns : Returns s.frame :=
  (floorGrid_returns h).bind fun _ _ => (axes_returns h).bind fun _ _ =>
    (boundary_returns h).bind fun _ _ => .ok _

/-! ### Surfaces and iso-lines -/

theorem cellColour_returns (jet : Bool) (lo hi value : α) : Returns (s.cellColour jet lo hi value) := by
  unfold cellColour
  split
  · exact (normalise_returns _ _ _).bind fun _ _ => Palette.jet_returns h.palette _
  · have hspan := mul_pos (Scalar.literal_pos 1 (m := 20) (by decide)) h.view.rangeZ
    exact (Scalar.divide_returns _ hspan.ne').bind fun _ _ => Palette.surface_returns h.palette _

theorem paintQuads_returns (jet : Bool) (lo hi : α) (cells : List (Quad α)) :
    Returns (s.paintQuads jet lo hi cells) :=
  .branch (fun _ => h.palette.jetSurfaceOpacity) (fun _ => h.palette.surfaceOpacity) fun _ =>
    .mapM fun _ _ => (cellColour_returns h _ _ _ _).bind fun _ _ => .ok _

theorem surface_returns (jet : Bool) (grid : Grid α) : Returns (s.surface jet grid) :=
  (quads_returns h.view _ _ _).bind fun _ _ => (paintQuads_returns h _ _ _ _).bind fun _ _ => .ok _

theorem vectorSurface_returns (grid : Grid α) : Returns (s.vectorSurface grid) :=
  (quads_returns h.view _ _ _).bind fun _ _ => (paintQuads_returns h _ _ _ _).bind fun _ _ => .ok _

theorem isoLine_returns (stroke : Stroke α) (grid : Grid α) (level z : α) :
    Returns (s.isoLine stroke grid level z) :=
  .bind ⟨_, Grid.contour_eq grid level⟩ fun _ _ => .flatMapM fun _ _ => modelLine_returns h _ _ _ _

theorem contours_returns (onSurface : Bool) (count : ℤ) (width opacity : α) (grid : Grid α) :
    Returns (s.contours onSurface count width opacity grid) := by
  unfold contours
  split
  · exact .ok []
  · refine (Sampling.contourLevels_returns _ _ _).bind fun _ _ => ?_
    refine .branch (fun _ => ?_) (fun _ => .ok _) fun _ => ?_
    · unfold heightFactor
      split
      · next hpeak =>
        rw [Scalar.literal_zero] at hpeak
        exact Scalar.divide_returns _ hpeak.ne'
      · exact .ok _
    · exact .flatMapM fun _ _ => (normalise_returns _ _ _).bind fun _ _ =>
        (Palette.jet_returns h.palette _).bind fun _ _ => isoLine_returns h _ _ _ _

/-! ### Curves -/

theorem dropLine_returns (steps : ℤ) {every : ℤ} (hevery : 0 < every) (x value : α) :
    Returns (s.dropLine steps every x value) := by
  have hspan := mul_pos (Scalar.literal_pos 1 (m := 20) (by decide)) h.view.rangeX
  refine (Scalar.divide_returns _ hspan.ne').bind fun _ _ => (Scalar.whole_returns _ _).bind fun _ _ => ?_
  rw [if_neg hevery.ne']
  split
  · exact modelLine_returns h _ _ _ _
  · exact .ok []

theorem standingCurve_returns (hscalar : s.request.field.isSome = false) : Returns s.standingCurve := by
  refine .bind_of_exists h.detail.standingCurveSteps fun steps hsteps => ?_
  refine .bind_of_exists h.detail.dropLineEvery fun every hevery => ?_
  refine (Sampling.curve_returns (h.evaluates.scalar hscalar) _ _ _ hsteps.ne' _).bind fun stretches _ => ?_
  refine .bind (.flatMapM fun _ _ => .flatMapM fun _ _ => dropLine_returns h _ hevery _ _) fun _ _ => ?_
  have hpath (stroke : Stroke α) (role : Role) (lift : α → α) :
      Returns (stretches.flatMapM fun stretch => do
      let points ← stretch.mapM fun sample => return (← s.placeModel ⟨sample.1, 0.0, lift sample.2⟩).image
      s.canvas.path stroke role points) :=
    .flatMapM fun _ _ => .bind (.mapM fun _ _ => (placeModel_returns h _).bind fun _ _ => .ok _) fun _ _ =>
      Canvas.path_returns h.canvas _ _ _
  exact .bind (hpath _ _ fun _ => _) fun _ _ => .bind (hpath _ _ id) fun _ _ => .ok _

/-! ### Fields -/

theorem dot_returns (lo hi value : α) {p : Point α} {placed : Placed α}
    (hplaced : s.placeModel p = .ok placed) : Returns (s.dot lo hi placed value) := by
  unfold dot
  split
  · exact .ok []
  · next centre hcentre =>
    split
    -- A dot shrinks with its distance from the eye, which is not zero as the dot has an image.
    · obtain ⟨scale, -, hplaced⟩ := bind_eq_ok.mp hplaced
      have hdepth := focal_ne_zero_of_image hplaced hcentre
      exact (Scalar.divide_returns _ hdepth).bind fun _ _ => (normalise_returns _ _ _).bind fun _ _ =>
        (Palette.jet_returns h.palette _).bind fun _ _ => .ok _
    · exact .ok []

theorem dots_returns (lo hi : α) (readings : List (Reading α)) : Returns (s.dots lo hi readings) := by
  refine .bind (.mapM fun _ _ => (placeModel_returns h _).bind fun _ _ => .ok _) fun placed hplaced => ?_
  refine .flatMapM fun entry hentry => ?_
  have hmem := (farthestFirst_perm _ _).mem_iff.mp hentry
  obtain ⟨reading, -, hreading⟩ := exists_of_mem_right (mapM_eq_ok.mp hplaced) hmem
  obtain ⟨q, hq, hreading⟩ := bind_eq_ok.mp hreading
  obtain rfl := pure_eq_ok.mp hreading
  exact dot_returns h _ _ _ hq

theorem scalarField_returns (hscalar : s.request.field.isSome = false) : Returns s.scalarField := by
  refine .bind_of_exists h.detail.fieldLattice fun cells hcells => ?_
  refine (Sampling.scalarField_returns (h.evaluates.scalar hscalar) _ hcells.le).bind fun _ _ => ?_
  split
  · exact .ok []
  · exact (dots_returns h _ _ _).bind fun _ _ => .ok _

theorem magnitudeField_returns (hvector : s.request.field.isSome = true) : Returns s.magnitudeField := by
  refine .bind_of_exists h.detail.magnitudeLattice fun cells hcells => ?_
  refine (Sampling.fieldMagnitudes_returns (h.evaluates.vector hvector) _ _ hcells.le).bind fun _ _ => ?_
  split
  · exact .ok []
  · split
    · exact .ok []
    · exact (dots_returns h _ _ _).bind fun _ _ => .ok _

theorem arrow_returns {largest : α} (hlargest : 0 < largest) (a : PlacedArrow α) :
    Returns (s.arrow largest a) := by
  unfold arrow
  split
  · exact .ok []
  · split
    · refine (place_returns _ _ _ _).bind fun tip _ => ?_
      refine (Scalar.divide_returns _ hlargest.ne').bind fun _ _ => ?_
      refine (Palette.jet_returns h.palette _).bind fun _ _ => ?_
      refine (Canvas.line_returns h.canvas _ _ _ _ _).bind fun _ _ => ?_
      split
      · exact .ok _
      · dsimp only
        split
        · exact (Canvas.arrowHead_returns h.canvas _ _ _ _ _).bind fun _ _ => .ok _
        · exact .ok _
    · exact .ok []

theorem placeArrows_returns (peak : α) (arrows : List (Arrow α)) : Returns (s.placeArrows peak arrows) := by
  refine .branch (fun hscaled => ?_) (fun _ => .ok _) fun _ => ?_
  · simp only [Bool.and_eq_true, decide_eq_true_iff, Scalar.literal_zero] at hscaled
    exact Scalar.divide_returns _ hscaled.2.ne'
  · exact h.view.scales_returns.bind fun _ _ => .mapM fun _ _ => (place_returns _ _ _ _).bind fun _ _ => .ok _

theorem vectorArrows_returns (hvector : s.request.field.isSome = true) : Returns s.vectorArrows := by
  refine .bind_of_exists h.detail.spaceArrows fun cells hcells => ?_
  refine (Sampling.arrows_returns (h.evaluates.vector hvector) _ _ _ hcells.le).bind fun arrows harrows => ?_
  split
  · next largest peak hlargest hpeak =>
    -- The largest magnitude is that of some arrow, and what is too short for an arrow has been left out.
    have hpos : 0 < largest := by
      refine Scalar.largest?_pos (fun m hm => ?_) hlargest
      obtain ⟨a, ha, rfl⟩ := List.mem_map.mp hm
      exact Sampling.magnitude_pos_of_arrows harrows a ha
    refine (placeArrows_returns h _ _).bind fun _ _ => ?_
    exact .bind (.flatMapM fun _ _ => arrow_returns h hpos _) fun _ _ => .ok _
  · exact .ok []

/-! ### The whole scene -/

theorem scalarGrid_returns (hscalar : s.request.field.isSome = false) : Returns s.scalarGrid :=
  .bind_of_exists h.detail.surfaceGrid fun _ hcells =>
    Sampling.surface_returns (h.evaluates.scalar hscalar) _ hcells.le

theorem vectorGrid_returns (hvector : s.request.field.isSome = true) : Returns s.vectorGrid :=
  .bind_of_exists h.detail.surfaceGrid fun _ hcells =>
    Sampling.vectorSurface_returns (h.evaluates.vector hvector) _ _ hcells.le

theorem vectorContent_returns (hvector : s.request.field.isSome = true) : Returns s.vectorContent := by
  unfold vectorContent
  dsimp only
  split
  · refine (vectorGrid_returns h hvector).bind fun _ _ => (vectorSurface_returns h _).bind fun _ _ => ?_
    refine .branch (fun _ => contours_returns h _ _ _ _ _) (fun _ => .ok _) fun _ => ?_
    exact .branch (fun _ => vectorArrows_returns h hvector) (fun _ => .ok _) fun _ => .ok _
  · split
    · exact magnitudeField_returns h hvector
    · exact vectorArrows_returns h hvector

theorem functionContent_returns (hscalar : s.request.field.isSome = false) : Returns s.functionContent := by
  unfold functionContent
  dsimp only
  split
  · refine (scalarField_returns h hscalar).bind fun _ _ => ?_
    split
    · exact (scalarGrid_returns h hscalar).bind fun _ _ => (contours_returns h _ _ _ _ _).bind fun _ _ => .ok _
    · exact .ok _
  · refine (scalarGrid_returns h hscalar).bind fun _ _ => (surface_returns h _ _).bind fun _ _ => ?_
    split
    · exact .bind_of_exists h.detail.contourLevels fun _ _ =>
        (contours_returns h _ _ _ _ _).bind fun _ _ => .ok _
    · exact .ok _

theorem content_returns : Returns s.content := by
  unfold content
  split
  · next hvector => exact vectorContent_returns h hvector
  · next hscalar =>
    have hscalar := Bool.eq_false_iff.mpr hscalar
    split
    · exact functionContent_returns h hscalar
    · exact standingCurve_returns h hscalar

theorem build_returns : Returns s.build :=
  (frame_returns h).bind fun _ _ => (content_returns h).bind fun _ _ => .ok _

end SpaceScene

end FieldPlot.Scene
