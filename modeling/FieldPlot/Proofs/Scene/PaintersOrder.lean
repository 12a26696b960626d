import FieldPlot.Proofs.Sampling.LatticeArrows
import FieldPlot.Proofs.Scene.ArrowHeights
import FieldPlot.Proofs.Scene.Depths
import FieldPlot.Proofs.Scene.Dots

/-! The painter's order of a plot in space. The frame comes before everything else, a surface before the
iso-lines on it, and the cells, dots and arrows from the farthest to the nearest. -/

namespace FieldPlot.Scene

open Expression (Arithmetic)
open Sampling (Arrow OnAxis Sampled StandsFor arrowAt? arrowAt_of_restriction collect_map exists_of_mem_collect
  fieldSites_sites peakOf_cases position standsFor_of_arrowAt)
open View (SpaceView)

variable {α : Type} [Scalar α]

/-- The cells in painting order: each of them once, none before a farther one, and equally far ones in
grid order. -/
structure PaintedOnce (painted cells : List (Quad α)) : Prop where
  perm : painted.Perm cells
  recedes : painted.Pairwise fun a b => b.depth ≤ a.depth
  ties : ∀ d, painted.filter (fun a => equallyFar a.depth d) = cells.filter fun a => equallyFar a.depth d

theorem sortQuads_paintedOnce [OrderedScalar α] {cells : List (Quad α)}
    (h : ∀ c ∈ cells, Scalar.isUndefined c.depth = false) : PaintedOnce (sortQuads cells) cells :=
  ⟨farthestFirst_perm _ _, farthestFirst_pairwise h, farthestFirst_stable h⟩

namespace SpaceScene

variable {s : SpaceScene α} {items : List (Item α)}

/-- What the order of a plot promises about its two parts and the cells of the surface. -/
structure PaintersOrder (cells : List (Quad α)) (frame content : List (Item α)) : Prop where
  frame_decorates : ∀ item ∈ frame, item.role.isDecoration = true
  content_plots : ∀ item ∈ content, item.role.isDecoration = false
  surfaces : ∃ painted, List.Forall₂ Paints (content.filter (·.role = .surface)) painted ∧
    PaintedOnce painted cells
  contours_last : content.Pairwise fun i j => i.role = .contour → j.role ≠ .surface
  fields_recede : Receding .field content
  arrows_recede : Receding .arrow content

structure Layers (cells : List (Quad α)) (fields surface contours marks : List (Item α)) : Prop where
  fields : FieldLayer fields
  surface : SurfaceLayer cells surface
  contours : ∀ item ∈ contours, item.role ∈ [.contour]
  marks : MarkLayer marks

def HasLayers (s : SpaceScene α) (items : List (Item α)) : Prop :=
  ∃ cells fields surface contours marks, s.shownCells = .ok cells ∧
    items = fields ++ (surface ++ (contours ++ marks)) ∧ Layers cells fields surface contours marks

section

variable [OrderedScalar α] (hdepths : s.Depths)
include hdepths

theorem vectorContent_layers (hfield : s.request.field.isSome = true) (h : s.vectorContent = .ok items) :
    s.HasLayers items := by
  unfold vectorContent at h
  dsimp only at h
  split at h
  · next hsurface =>
    obtain ⟨grid, hgrid, h⟩ := bind_eq_ok.mp h
    obtain ⟨surface, hpainted, h⟩ := bind_eq_ok.mp h
    obtain ⟨contours, hcontours, h⟩ := branch_eq_ok.mp h
    obtain ⟨arrows, harrows, h⟩ := branch_eq_ok.mp h
    obtain rfl := pure_eq_ok.mp h
    obtain ⟨cells, hcells, hlayer⟩ := vectorSurface_layer hpainted
    refine ⟨cells, [], surface, contours, arrows, ?_, List.append_assoc .., .nil, hlayer, ?_, ?_⟩
    · rw [shownCells, if_pos hfield, if_pos hsurface]
      exact bind_eq_ok.mpr ⟨grid, hgrid, hcells⟩
    · split at hcontours
      · exact contours_role hcontours
      · exact Except.ok.inj hcontours ▸ fun _ hitem => nomatch hitem
    · split at harrows
      · exact vectorArrows_layer hdepths harrows
      · exact Except.ok.inj harrows ▸ .nil
  · next hsurface =>
    have hcells : s.shownCells = .ok [] := by rw [shownCells, if_pos hfield, if_neg hsurface]
    split at h
    · exact ⟨[], items, [], [], [], hcells, (List.append_nil _).symm, magnitudeField_layer hdepths hfield h, .nil,
        fun _ hitem => (nomatch hitem), .nil⟩
    · exact ⟨[], [], [], [], items, hcells, rfl, .nil, .nil, fun _ hitem => (nomatch hitem),
        vectorArrows_layer hdepths h⟩

theorem functionContent_layers (hfield : s.request.field.isSome = false) (hspatial : s.request.spatial = true)
    (h : s.functionContent = .ok items) : s.HasLayers items := by
  have hnone : ¬s.request.field.isSome = true := by simp [hfield]
  unfold functionContent at h
  dsimp only at h
  split at h
  · next hdots =>
    -- Iso-lines that are not asked for count as an empty layer.
    obtain ⟨fields, hfields, h⟩ := bind_eq_ok.mp h
    obtain ⟨contours, hcontours, rfl⟩ : ∃ contours, (∀ item ∈ contours, item.role ∈ [.contour]) ∧
        fields ++ contours = items := by
      split at h
      · obtain ⟨grid, -, h⟩ := bind_eq_ok.mp h
        obtain ⟨contours, hcontours, h⟩ := bind_eq_ok.mp h
        exact ⟨contours, contours_role hcontours, pure_eq_ok.mp h⟩
      · exact ⟨[], fun _ hitem => (nomatch hitem), pure_eq_ok.mp h⟩
    refine ⟨[], fields, [], contours, [], ?_, by simp, scalarField_layer hdepths hfield hfields, .nil, hcontours, .nil⟩
    rw [shownCells, if_neg hnone, hdots, hspatial]
    rfl
  · next hdots =>
    obtain ⟨grid, hgrid, h⟩ := bind_eq_ok.mp h
    obtain ⟨surface, hpainted, h⟩ := bind_eq_ok.mp h
    obtain ⟨contours, hcontours, rfl⟩ : ∃ contours, (∀ item ∈ contours, item.role ∈ [.contour]) ∧
        surface ++ contours = items := by
      split at h
      · obtain ⟨count, -, h⟩ := bind_eq_ok.mp h
        obtain ⟨contours, hcontours, h⟩ := bind_eq_ok.mp h
        exact ⟨contours, contours_role hcontours, pure_eq_ok.mp h⟩
      · exact ⟨[], fun _ hitem => (nomatch hitem), pure_eq_ok.mp h⟩
    obtain ⟨cells, hcells, hlayer⟩ := surface_layer hpainted
    refine ⟨cells, [], surface, contours, [], ?_, by simp, .nil, hlayer, hcontours, .nil⟩
    rw [shownCells, if_neg hnone, Bool.eq_false_iff.mpr hdots, hspatial]
    exact bind_eq_ok.mpr ⟨grid, hgrid, hcells⟩

theorem content_layers (h : s.content = .ok items) : s.HasLayers items := by
  unfold content at h
  split at h
  · next hfield => exact vectorContent_layers hdepths hfield h
  · next hfield =>
    split at h
    · next hspatial => exact functionContent_layers hdepths (Bool.eq_false_iff.mpr hfield) hspatial h
    · next hspatial =>
      have hcells : s.shownCells = .ok [] := by
        rw [shownCells, if_neg hfield, Bool.eq_false_iff.mpr hspatial]
        rfl
      exact ⟨[], [], [], [], items, hcells, rfl, .nil, .nil, fun _ hitem => (nomatch hitem),
        standingCurve_layer h⟩

end

theorem Layers.paintersOrder [OrderedScalar α] {cells : List (Quad α)}
    {frame fields surface contours marks : List (Item α)} (h : Layers cells fields surface contours marks)
    (hcells : ∀ c ∈ cells, Scalar.isUndefined c.depth = false)
    (hframe : ∀ item ∈ frame, item.role.isDecoration = true)
    (hcontent : ∀ item ∈ fields ++ (surface ++ (contours ++ marks)), item.role.isDecoration = false) :
    PaintersOrder cells frame (fields ++ (surface ++ (contours ++ marks))) where
  frame_decorates := hframe
  content_plots := hcontent
  surfaces := by
    have hfields := filter_role_of_absent (absent_of_roles .surface h.fields.roles (by decide))
    have hcontours := filter_role_of_absent (absent_of_roles .surface h.contours (by decide))
    have hmarks := filter_role_of_absent (absent_of_roles .surface h.marks.roles (by decide))
    refine ⟨sortQuads cells, ?_, sortQuads_paintedOnce hcells⟩
    simp only [List.filter_append, hfields, hcontours, hmarks, List.nil_append, List.append_nil]
    exact h.surface.painted
  contours_last := by
    have hbefore : ∀ item ∈ fields ++ surface, item.role ≠ .contour := List.forall_mem_append.mpr
      ⟨absent_of_roles _ h.fields.roles (by decide), absent_of_roles _ h.surface.roles (by decide)⟩
    have hafter : ∀ item ∈ contours ++ marks, item.role ≠ .surface := List.forall_mem_append.mpr
      ⟨absent_of_roles _ h.contours (by decide), absent_of_roles _ h.marks.roles (by decide)⟩
    -- Cut behind the surface: no iso-line stands before the cut, and no surface after it.
    rw [← List.append_assoc]
    refine List.pairwise_append.mpr ⟨?_, ?_, fun i hi _ _ hcontour => absurd hcontour (hbefore i hi)⟩
    · exact List.pairwise_of_forall_mem_list fun i hi _ _ hcontour => absurd hcontour (hbefore i hi)
    · exact List.pairwise_of_forall_mem_list fun _ _ j hj _ => hafter j hj
  fields_recede := by
    refine h.fields.recedes.append fun item hitem => ?_
    simp only [List.mem_append] at hitem
    rcases hitem with hitem | hitem | hitem
    · exact absent_of_roles _ h.surface.roles (by decide) item hitem
    · exact absent_of_roles _ h.contours (by decide) item hitem
    · exact absent_of_roles _ h.marks.roles (by decide) item hitem
  arrows_recede := by
    have hfields := absent_of_roles .arrow h.fields.roles (by decide)
    have hsurface := absent_of_roles .arrow h.surface.roles (by decide)
    have hcontours := absent_of_roles .arrow h.contours (by decide)
    exact ((h.marks.recedes.prepend hcontours).prepend hsurface).prepend hfields

section

variable {K : Type} [Field K] [LinearOrder K] [IsStrictOrderedRing K] [HasValue α K] [RoundedScalar α K] [Arithmetic α]

/-- A plot in space is a frame of decorations and then what is plotted. Of that, the surface shows every
cell of its grid once, from the farthest to the nearest and equally far ones in grid order, the iso-lines
come after all of it, and so ordered are the dots of a field and its arrows. -/
theorem build_in_painters_order (hunit : Scalar.UnitTurns α) (hsamples : s.samples = s.request.samples)
    (h : s.build = .ok items) : ∃ frame content cells,
    items = frame ++ content ∧ s.shownCells = .ok cells ∧ PaintersOrder cells frame content := by
  obtain ⟨frame, hframe, h⟩ := bind_eq_ok.mp h
  obtain ⟨content, hcontent, h⟩ := bind_eq_ok.mp h
  obtain rfl := pure_eq_ok.mp h
  have hdepths : s.Depths := by
    obtain ⟨_, -, haxes⟩ := bind_eq_ok.mp hframe
    obtain ⟨_, haxes, -⟩ := bind_eq_ok.mp haxes
    exact depths_of_axes hunit (hsamples ▸ Request.samples_finite s.request) haxes
  obtain ⟨cells, fields, surface, contours, marks, hcells, rfl, hlayers⟩ := content_layers hdepths hcontent
  refine ⟨frame, _, cells, rfl, hcells, hlayers.paintersOrder (hdepths.cells hcells) (fun item hitem => ?_)
    fun item hitem => ?_⟩
  · exact (frame_framed (shows_anything _) frame hframe item hitem).known
  · exact (content_drawn (shows_anything _) _ hcontent item hitem).known

end

/-! ### Depths that differ -/

/-- The items of a role are at more than one depth. -/
def Spread (role : Role) (items : List (Item α)) : Prop :=
  ∃ i ∈ items, ∃ j ∈ items, i.role = role ∧ j.role = role ∧ i.depth < j.depth

section

variable {cells : List (Quad α)} {frame content : List (Item α)} {role : Role}

theorem PaintersOrder.spread (h : PaintersOrder cells frame content) (hspread : Spread role (frame ++ content))
    (hrole : role.isDecoration = false) : Spread role content := by
  have hmem {item : Item α} (hitem : item ∈ frame ++ content) (hplays : item.role = role) : item ∈ content := by
    refine (List.mem_append.mp hitem).resolve_left fun hframe => ?_
    have hdecorates := h.frame_decorates item hframe
    rw [hplays, hrole] at hdecorates
    cases hdecorates
  obtain ⟨i, hi, j, hj, hirole, hjrole, hlt⟩ := hspread
  exact ⟨i, hmem hi hirole, j, hmem hj hjrole, hirole, hjrole, hlt⟩

theorem PaintersOrder.spread_surface (h : PaintersOrder cells frame content) {c d : Quad α} (hc : c ∈ cells)
    (hd : d ∈ cells) (hlt : c.depth < d.depth) : Spread .surface content := by
  obtain ⟨painted, hpaints, honce⟩ := h.surfaces
  have hitem {c : Quad α} (hc : c ∈ cells) : ∃ item ∈ content, item.role = .surface ∧ item.depth = c.depth := by
    obtain ⟨item, hitem, hpaints⟩ := exists_of_mem_right hpaints (honce.perm.mem_iff.mpr hc)
    obtain ⟨hmem, hrole⟩ := List.mem_filter.mp hitem
    exact ⟨item, hmem, of_decide_eq_true hrole, hpaints.1⟩
  obtain ⟨i, hi, hirole, hidepth⟩ := hitem hc
  obtain ⟨j, hj, hjrole, hjdepth⟩ := hitem hd
  exact ⟨i, hi, j, hj, hirole, hjrole, hidepth ▸ hjdepth ▸ hlt⟩

end

section

variable {α : Type} [LawfulScalar α] {s : SpaceScene α} {items : List (Item α)} {placed : List (PlacedArrow α)}

/-- An arrow between two points of the canvas is drawn. -/
theorem exists_arrow {a : PlacedArrow α} {start tip : Pixel α} {p : Point α} (h : s.vectorArrows = .ok items)
    (hplaced : s.placedArrows = .ok placed) (ha : a ∈ placed) (hstart : a.placed.image = some start)
    (hcovers : s.canvas.rect.Covers start)
    (htip : s.place ⟨a.start.x + a.arrow.direction.x * 15.0, a.start.y + a.arrow.direction.y * 15.0,
      a.start.z + a.arrow.direction.z * 15.0⟩ = .ok ⟨p, some tip⟩) (htipCovers : s.canvas.rect.Covers tip) :
    ∃ item ∈ items, item.role = .arrow ∧ item.depth = a.placed.point.y := by
  have hnear : (s.canvas.around 50.0).contains start = true := by
    have hmargin : (50.0 : α) = 50 := by
      norm_num only [ExactScalar.scientific_eq]
    rw [Rect.contains, Pixel.isFinite, LawfulScalar.isFinite_eq, LawfulScalar.isFinite_eq,
      Rect.of_eq_inside_iff.mpr]
    · rfl
    · rw [Canvas.covers_iff] at hcovers
      rw [Rect.covers_iff_coordinates, Canvas.around, hmargin]
      refine ⟨⟨?_, ?_⟩, ?_, ?_⟩ <;> dsimp only <;> linarith [hcovers.1.1, hcovers.1.2, hcovers.2.1, hcovers.2.2]
  have hdrawn {largest : α} {part : List (Item α)} (h : s.arrow largest a = .ok part) :
      ∃ item ∈ part, item.role = .arrow ∧ item.depth = a.placed.point.y := by
    rw [arrow, hstart] at h
    dsimp only at h
    rw [if_pos hnear, htip, ok_bind] at h
    obtain ⟨share, -, h⟩ := bind_eq_ok.mp h
    obtain ⟨colour, -, h⟩ := bind_eq_ok.mp h
    rw [Canvas.line_of_covers hcovers htipCovers, ok_bind] at h
    dsimp only at h
    split at h
    · obtain ⟨head, -, h⟩ := bind_eq_ok.mp h
      exact pure_eq_ok.mp h ▸ ⟨_, List.mem_cons_self, rfl, rfl⟩
    · exact pure_eq_ok.mp h ▸ ⟨_, List.mem_cons_self, rfl, rfl⟩
  rcases vectorArrows_eq_ok h with ⟨-, hnone⟩ | ⟨_, largest, shown, bar, hplaced', hshown, rfl, -⟩
  · rw [hnone placed hplaced] at ha
    cases ha
  obtain rfl := Except.ok.inj (hplaced.symm.trans hplaced')
  obtain ⟨parts, hparts, rfl⟩ := flatMapM_eq_ok.mp hshown
  obtain ⟨part, hpart, hemits⟩ := exists_of_mem_right hparts.flip ((farthestFirst_perm _ placed).mem_iff.mpr ha)
  obtain ⟨item, hitem, hrole, hdepth⟩ := hdrawn hemits
  exact ⟨item, List.mem_append_left _ (List.mem_flatten.mpr ⟨part, hpart, hitem⟩), hrole, hdepth⟩
end

theorem corners_spread {items : List (Item ℝ)} (h : (corners 800).build = .ok items) : Spread .field items := by
  have hdot {c : ℝ} (hc : c = 5 ∨ c = -5) : ∃ item ∈ items, item.role = .field ∧ item.depth = 40 * c := by
    have hcanvas : (corners 800).OnCanvas ⟨c, c, c⟩ := by
      rcases hc with rfl | rfl
      · exact corners_onCanvas (by norm_num) rfl (by norm_num [abs_le]) (by norm_num [abs_le])
      · exact corners_onCanvas (by norm_num) rfl (by norm_num [abs_le]) (by norm_num [abs_le])
    obtain ⟨item, hitem, hdot⟩ := exists_corner_dot hc hcanvas h
    exact ⟨item, hitem, hdot.role, hdot.depth.trans (congrArg Point.y (corners_turned 800 c))⟩
  obtain ⟨i, hi, hirole, hidepth⟩ := hdot (.inr rfl)
  obtain ⟨j, hj, hjrole, hjdepth⟩ := hdot (.inl rfl)
  refine ⟨i, hi, j, hj, hirole, hjrole, ?_⟩
  rw [hidepth, hjdepth]
  norm_num

/-- The request for a field that is the same everywhere. -/
def gustRequest : Request :=
  ⟨['i'], some ⟨some ['1'], none, none⟩, false, .function, .x, true, true, []⟩

theorem gust_vector (p : Point ℝ) :
    (gustRequest.samples : Request.Samples ℝ).vector p = .ok ⟨some 1, some 0, some 0⟩ := by
  have hread : Expression.Parsed.ofChars? ['1'] = some ⟨.literal ⟨1, 0⟩, []⟩ := by decide +kernel
  have hone : (Expression.Arithmetic.numeral ⟨1, 0⟩ : ℝ) = 1 := by
    show ((1 : ℕ) : ℝ) / 10 ^ 0 = 1
    norm_num
  have hvalue : Expression.Formula.value (.ofChars ['1']) p = Except.ok (1 : ℝ) := by
    rw [Expression.Formula.value, Expression.Formula.ofChars, hread]
    exact congrArg Except.ok hone
  show Except.map _ (Vectors.FieldFormula.value ⟨some (.ofChars ['1']), none, none⟩ p) = _
  rw [Vectors.FieldFormula.value, Vectors.FieldFormula.componentValue, hvalue]
  exact congrArg (fun z : ℝ => Except.ok (Vectors.Vec.mk (some 1) (some z) (some z))) Scalar.literal_zero

noncomputable def gust : SpaceScene ℝ where
  request := gustRequest
  samples := gustRequest.samples
  view := { SpaceView.initial with
    rotationX := 0
    rotationZ := 0 }
  palette := .ofTable Settings.appearanceDefaults
  detail := { Detail.ofTable (Settings.samplingDefaults : Settings.Table ℝ) with
    surfaceGrid := .ok 2
    spaceArrows := .ok 1 }
  canvas := ⟨900, 900⟩

theorem gust_extent_positive : gust.view.extent.Positive :=
  ⟨initial_extent_positive.x, initial_extent_positive.y, initial_extent_positive.z⟩

theorem gust_sound : gust.Sound where
  evaluates := ⟨fun h => (nomatch h), fun _ p => ⟨_, gust_vector p⟩⟩
  view :=
    have h : (SpaceView.initial : SpaceView ℝ).Sound := SpaceView.initial_sound
    ⟨h.rangeX, h.rangeY, h.rangeZ, h.minRange⟩
  palette := Palette.default_sound
  detail :=
    have h : (Detail.ofTable (Settings.samplingDefaults : Settings.Table ℝ)).Sound := Detail.default_sound
    { h with surfaceGrid := ⟨2, rfl, two_pos⟩, spaceArrows := ⟨1, rfl, one_pos⟩ }
  canvas := ⟨by norm_num [gust], by norm_num [gust]⟩

theorem gust_turned (p : Point ℝ) : p.turned gust.view.rotationX gust.view.rotationZ = p := by
  have hcos : Scalar.cos (0 : ℝ) = 1 := Real.cos_zero
  have hsin : Scalar.sin (0 : ℝ) = 0 := Real.sin_zero
  simp only [gust, Point.turned, Point.turnedX, Point.turnedZ, hcos, hsin, mul_one, mul_zero, sub_zero, zero_add]

theorem gust_scale : gust.view.scale = ⟨40, 40, 40⟩ := by
  have hrange : (200 : ℝ) / (5.0 : ℝ) = 40 := by
    rw [ExactScalar.scientific_eq]
    norm_num
  rw [View.SpaceView.scale]
  show Point.mk ((200 : ℝ) / 5.0) ((200 : ℝ) / 5.0) ((200 : ℝ) / 5.0) = _
  rw [hrange]

theorem gust_cells {cells : List (Quad ℝ)} (h : gust.shownCells = .ok cells) :
    ∃ c ∈ cells, ∃ d ∈ cells, c.depth < d.depth := by
  have h : (do gust.gridQuads (← gust.vectorGrid)) = .ok cells := h
  obtain ⟨g, hg, h⟩ := bind_eq_ok.mp h
  have hsampled : Sampled gust.view.extent (2 : ℕ) g := .field _ _ hg
  have hfocal : 120000 < gust.view.focalLength ^ 2 := by
    norm_num [gust, SpaceView.initial]
  obtain ⟨shown, hshown, hall⟩ := quads_allSeen Real.cos_sq_add_sin_sq gust_extent_positive hfocal hsampled 900 900
  obtain rfl : shown = cells := Except.ok.inj (hshown.symm.trans h)
  have hsize : g.ys.size = 3 := by
    rw [hsampled.positions_eq.2]
    simp
  have hrow {i j : ℕ} (hi : i < 2) (hj : j < 2) : cellAt g gust.view 900 900 i j ∈ shown := by
    rw [hall.row_major]
    exact List.mem_flatMap.mpr ⟨i, List.mem_range.mpr hi, List.mem_map.mpr ⟨j, List.mem_range.mpr hj, rfl⟩⟩
  refine ⟨_, hrow (i := 0) (j := 0) (by decide) (by decide), _, hrow (i := 0) (j := 1) (by decide) (by decide), ?_⟩
  have hy {i j : ℕ} : (turnedVertex g gust.view i j).y = g.y j * 40 := by
    rw [turnedVertex, gust_turned, scenePoint, gust_scale]
  have hlt : g.y 0 < g.y 2 := hsampled.y_lt gust_extent_positive.y (by decide) (by omega)
  simp only [cellAt, cornerMean, cellCorners, hy, List.map_cons, List.map_nil, List.sum_cons, List.sum_nil]
  linarith

/-- The gust has an arrow in the middle of the near side and one in the middle of the far side. -/
theorem exists_gust_reading {placed : List (PlacedArrow ℝ)} {b : ℝ} (hb : b = 5 ∨ b = -5)
    (h : gust.placedArrows = .ok placed) : ∃ a ∈ placed, a.arrow.start = ⟨0, b, 0⟩ ∧
      StandsFor .x ⟨some 1, some 0, some 0⟩ a.arrow := by
  obtain ⟨cells, hcells, h⟩ := bind_eq_ok.mp h
  obtain rfl := Except.ok.inj hcells
  obtain ⟨found, hfound, h⟩ := bind_eq_ok.mp h
  obtain ⟨sites, hsites, hcollect⟩ := bind_eq_ok.mp hfound
  obtain ⟨_, hsome, hlattice⟩ := fieldSites_sites gust_extent_positive false 1
  obtain rfl := Except.ok.inj (hsites.symm.trans hsome)
  have hend : OnAxis (5.0 : ℝ) 2 b := by
    rcases hb with rfl | rfl
    · exact ⟨2, le_rfl, by norm_num [position]⟩
    · exact ⟨0, zero_le_two, by norm_num [position]⟩
  have hmiddle : OnAxis (5.0 : ℝ) 2 0 := ⟨1, one_le_two, by norm_num [position]⟩
  have hsite : (⟨0, b, 0⟩ : Point ℝ) ∈ sites := (hlattice.mem_iff _).mpr ⟨hmiddle, hend, rfl⟩
  have hplace (p : Point ℝ) (a : Arrow ℝ)
      (h : (do arrowAt? .x p (← gust.samples.vector p)) = .ok (some a)) : a.start = p := by
    obtain ⟨_, -, h⟩ := bind_eq_ok.mp h
    exact (standsFor_of_arrowAt h).1
  have hrestriction : Vectors.Vec.IsRestriction .x ⟨some 1, some 0, some 0⟩ ⟨1, 0, 0⟩ := ⟨rfl, rfl, rfl⟩
  have hlong : 1 / 10 ^ 10 ≤ (⟨1, 0, 0⟩ : Vectors.Vec ℝ).magnitude := by
    rw [Vectors.Vec.magnitude_eq]
    exact Real.le_sqrt_of_sq_le (by norm_num)
  obtain ⟨arrow, harrow⟩ := arrowAt_of_restriction ⟨0, b, 0⟩ hrestriction hlong
  obtain ⟨-, hmem⟩ := collect_map hplace hcollect
  obtain ⟨a, ha, hstart⟩ := List.mem_map.mp
    ((hmem ⟨0, b, 0⟩).mpr ⟨hsite, arrow, bind_eq_ok.mpr ⟨_, gust_vector _, harrow⟩⟩)
  obtain ⟨p, -, hread⟩ := exists_of_mem_collect hcollect ha
  obtain ⟨v, hv, hread⟩ := bind_eq_ok.mp hread
  obtain rfl := Except.ok.inj (hv.symm.trans (gust_vector p))
  rw [← placeArrows_map h] at ha
  obtain ⟨placedArrow, hplaced, rfl⟩ := List.mem_map.mp ha
  exact ⟨placedArrow, hplaced, hstart, (standsFor_of_arrowAt hread).2⟩

theorem exists_gust_arrow {placed : List (PlacedArrow ℝ)} {b : ℝ} (hb : b = 5 ∨ b = -5)
    (h : gust.placedArrows = .ok placed) : ∃ a ∈ placed, a.start = ⟨0, b * 40, 200⟩ ∧ |a.arrow.direction.x| ≤ 1 ∧
      a.arrow.direction.y = 0 ∧ a.arrow.direction.z = 0 := by
  have hlifted {a : PlacedArrow ℝ} (ha : a ∈ placed) : LiftedArrow gust placed a :=
    mem_placedArrows gust_extent_positive (by decide) rfl h ha
  have hvalue {a : PlacedArrow ℝ} (ha : a ∈ placed) : a.arrow.surfaceValue = 1 := by
    obtain ⟨v, hv, hcomponent⟩ := (hlifted ha).sampled
    obtain rfl := Except.ok.inj (hv.symm.trans (gust_vector _))
    exact (Option.some.inj hcomponent).symm
  obtain ⟨a, ha, hsite, hstands⟩ := exists_gust_reading hb h
  have hpeak : arrowPeak placed = 1 := by
    rcases peakOf_cases (placed.map (·.arrow.surfaceValue)) with ⟨hnil, -⟩ | ⟨⟨x, hx, hpeak⟩, -⟩
    · rw [List.map_eq_nil_iff.mp hnil] at ha
      cases ha
    · obtain ⟨c, hc, rfl⟩ := List.mem_map.mp hx
      rw [arrowPeak, ← hpeak, hvalue hc, abs_one]
  have hrange : gust.view.rangeZ = 5 := by
    norm_num [gust, SpaceView.initial, ExactScalar.scientific_eq]
  obtain ⟨-, hy, hz⟩ := hstands.restriction
  have hpos : a.arrow.magnitude ≠ 0 := fun hzero => by
    have hlong := hstands.long
    norm_num [hzero] at hlong
  have hy : a.arrow.direction.y = 0 := (mul_eq_zero.mp hy).resolve_right hpos
  have hz : a.arrow.direction.z = 0 := (mul_eq_zero.mp hz).resolve_right hpos
  refine ⟨a, ha, ?_, ?_, hy, hz⟩
  · rw [(hlifted ha).start_eq, hsite, hvalue ha, hpeak, gust_scale, hrange]
    norm_num
  · have hunit := hstands.unit
    rw [Vectors.Vec.magnitude_eq, hy, hz, mul_zero, add_zero, add_zero, Real.sqrt_mul_self_eq_abs] at hunit
    exact hunit.le

theorem gust_place {p : Point ℝ} (hseen : 500 + p.y ≠ 0) : gust.place p =
    .ok ⟨p, some ⟨450 + p.x * (500 / (500 + p.y)), 450 - p.z * (500 / (500 + p.y))⟩⟩ := by
  have hfocal : gust.view.focalLength = 500 := by
    norm_num [gust, SpaceView.initial, ExactScalar.scientific_eq]
  have hscale : gust.view.focalLength / (gust.view.focalLength + p.y) = 500 / (500 + p.y) := by
    rw [hfocal]
  rw [place, Scene.place, Point.rotated_eq, gust_turned, ok_bind, image?_eq (by rwa [hfocal])]
  show Except.ok (Placed.mk p (some (Pixel.mk
    (900 / 2.0 + p.x * (gust.view.focalLength / (gust.view.focalLength + p.y)) + 0.0)
    (900 / 2.0 - p.z * (gust.view.focalLength / (gust.view.focalLength + p.y)) + 0.0)))) = _
  rw [hscale]
  norm_num [ExactScalar.scientific_eq]

theorem exists_gust_item {items : List (Item ℝ)} {b : ℝ} (hb : b = 5 ∨ b = -5) (h : gust.vectorArrows = .ok items) :
    ∃ item ∈ items, item.role = .arrow ∧ item.depth = b * 40 := by
  obtain ⟨placed, hplaced⟩ : Returns gust.placedArrows :=
    .bind_of_exists gust_sound.detail.spaceArrows fun _ hcells =>
      (Sampling.arrows_returns (gust_sound.evaluates.vector rfl) _ _ _ hcells.le).bind fun _ _ =>
        placeArrows_returns gust_sound _ _
  obtain ⟨a, ha, hstart, hx, hy, hz⟩ := exists_gust_arrow hb hplaced
  have hplace := place_of_mem_placedArrows hplaced ha
  have hseen : (500 : ℝ) + b * 40 ≠ 0 := by
    rcases hb with rfl | rfl <;> norm_num
  have hscale : 0 ≤ (500 : ℝ) / (500 + b * 40) ∧ (500 : ℝ) / (500 + b * 40) ≤ 5 / 3 := by
    rcases hb with rfl | rfl <;> norm_num
  obtain ⟨scale, hshrink⟩ : ∃ scale, (500 : ℝ) / (500 + b * 40) = scale := ⟨_, rfl⟩
  rw [hstart, gust_place hseen] at hplace
  have hcanvas {x : ℝ} (hx : |x| ≤ 15) :
      gust.canvas.rect.Covers ⟨450 + x * (500 / (500 + b * 40)), 450 - 200 * (500 / (500 + b * 40))⟩ := by
    rw [Canvas.covers_iff]
    rw [abs_le] at hx
    rw [hshrink] at hscale ⊢
    refine ⟨⟨?_, ?_⟩, ?_, ?_⟩ <;> simp only [gust] <;> nlinarith
  have hfifteen : (15.0 : ℝ) = 15 := by
    rw [ExactScalar.scientific_eq]
    norm_num
  have htip : gust.place ⟨a.start.x + a.arrow.direction.x * 15.0, a.start.y + a.arrow.direction.y * 15.0,
      a.start.z + a.arrow.direction.z * 15.0⟩ = .ok ⟨⟨a.arrow.direction.x * 15, b * 40, 200⟩,
        some ⟨450 + a.arrow.direction.x * 15 * (500 / (500 + b * 40)), 450 - 200 * (500 / (500 + b * 40))⟩⟩ := by
    rw [hstart, hy, hz, hfifteen, zero_add, zero_mul, add_zero, add_zero]
    exact gust_place hseen
  have hreach : |a.arrow.direction.x * 15| ≤ 15 := by
    rw [abs_mul, abs_of_pos (by norm_num : (0 : ℝ) < 15)]
    linarith
  have hplaced' := Except.ok.inj hplace
  obtain ⟨item, hitem, hrole, hdepth⟩ := exists_arrow h hplaced ha (congrArg Placed.image hplaced').symm
    (hcanvas (by norm_num)) htip (hcanvas hreach)
  exact ⟨item, hitem, hrole, hdepth.trans (congrArg (·.point.y) hplaced').symm⟩

theorem gust_spread {items : List (Item ℝ)} (h : gust.build = .ok items) : Spread .arrow items := by
  obtain ⟨frame, -, h⟩ := bind_eq_ok.mp h
  obtain ⟨content, hcontent, h⟩ := bind_eq_ok.mp h
  obtain rfl := pure_eq_ok.mp h
  obtain ⟨grid, -, hcontent⟩ := bind_eq_ok.mp hcontent
  obtain ⟨surface, -, hcontent⟩ := bind_eq_ok.mp hcontent
  obtain ⟨contours, -, hcontent⟩ := bind_eq_ok.mp hcontent
  obtain ⟨arrows, harrows, hcontent⟩ := bind_eq_ok.mp hcontent
  obtain rfl := pure_eq_ok.mp hcontent
  obtain ⟨i, hi, hirole, hidepth⟩ := exists_gust_item (.inr rfl) harrows
  obtain ⟨j, hj, hjrole, hjdepth⟩ := exists_gust_item (.inl rfl) harrows
  refine ⟨i, List.mem_append_right _ (List.mem_append_right _ hi), j,
    List.mem_append_right _ (List.mem_append_right _ hj), hirole, hjrole, ?_⟩
  rw [hidepth, hjdepth]
  norm_num

theorem unitTurns_real : Scalar.UnitTurns ℝ :=
  ⟨fun angle _ => Real.abs_cos_le_one angle, fun angle _ => Real.abs_sin_le_one angle⟩

/-- The cells of a surface and the arrows on it, and the dots of a function in space, are all drawn at more than one
depth, from the farthest to the nearest. -/
theorem build_in_painters_order_gust : Scalar.UnitTurns ℝ ∧
    (∃ items frame content cells, gust.build = .ok items ∧ items = frame ++ content ∧ gust.shownCells = .ok cells ∧
      PaintersOrder cells frame content ∧ Spread .surface content ∧ Spread .arrow content) ∧
    ∃ items frame content cells, (corners 800).build = .ok items ∧ items = frame ++ content ∧
      (corners 800).shownCells = .ok cells ∧ PaintersOrder cells frame content ∧ Spread .field content := by
  refine ⟨unitTurns_real, ?_, ?_⟩
  · obtain ⟨items, hitems⟩ := build_returns gust_sound
    obtain ⟨frame, content, cells, rfl, hcells, horder⟩ := build_in_painters_order unitTurns_real rfl hitems
    obtain ⟨c, hc, d, hd, hlt⟩ := gust_cells hcells
    exact ⟨_, frame, content, cells, hitems, rfl, hcells, horder, horder.spread_surface hc hd hlt,
      horder.spread (gust_spread hitems) rfl⟩
  · obtain ⟨items, hitems⟩ := build_returns (corners_sound 800)
    obtain ⟨frame, content, cells, rfl, hcells, horder⟩ := build_in_painters_order unitTurns_real rfl hitems
    exact ⟨_, frame, content, cells, hitems, rfl, hcells, horder, horder.spread (corners_spread hitems) rfl⟩

end SpaceScene

end FieldPlot.Scene
