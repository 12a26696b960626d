import FieldPlot.Proofs.Scalar.Integral
import FieldPlot.Proofs.Scene.Faultless
import FieldPlot.Proofs.Scene.PlaneDrawing
import FieldPlot.Proofs.View.Screen

/-! Ticks and numbers at the axes. They stand at the multiples of the spacing of the grid lines, in any window,
with the exception of those multiples that are not a thousandth away from the origin: not only the origin itself
goes without a mark there. -/

namespace FieldPlot

namespace Sampling

/-! ### Multiples of a step -/

variable {α : Type} [IntegralScalar α] {start stop step : α}

/-- The slack of a billionth step that steps are counted with. -/
def slack (step : α) : α :=
  1e-9 * step

theorem slack_eq (step : α) : slack step = step / 10 ^ 9 := by
  rw [slack, ExactScalar.scientific_eq, Nat.cast_one, one_div_mul_eq_div]

theorem steps_eq (start stop : α) (hstep : 0 < step) : ∃ n : ℕ,
    steps start stop step = .ok ((List.range n).map fun k : ℕ => start + k * step) ∧
      ∀ k : ℕ, k < n ↔ start + k * step ≤ stop + slack step := by
  have hpos : (0.0 : α) < step := Scalar.literal_zero.trans_lt hstep
  let count := Scalar.floor ((stop - start) / step + 1e-9)
  refine ⟨(count + 1).toNat, ?_, fun k => ?_⟩
  · rw [steps, LawfulScalar.isFinite_eq, LawfulScalar.isFinite_eq, if_pos (by simpa using hpos),
      Scalar.divide_of_ne_zero hstep.ne', ok_bind, Scalar.floor?, Scalar.whole_eq, ok_bind]
    simp only [Scalar.ofNat_eq]
    rfl
  · have hcount : k < (count + 1).toNat ↔ (k : ℤ) ≤ count := by omega
    have hscaled : stop + slack step - start = ((stop - start) / step + 1e-9) * step := by
      rw [add_mul, div_mul_cancel₀ _ hstep.ne', slack]
      ring
    calc k < (count + 1).toNat ↔ ((k : ℤ) : α) ≤ (stop - start) / step + 1e-9 := by
          rw [hcount, IntegralScalar.le_floor_iff]
      _ ↔ (k : α) * step ≤ stop + slack step - start := by
          rw [hscaled, Int.cast_natCast, mul_le_mul_iff_left₀ hstep]
      _ ↔ start + k * step ≤ stop + slack step := by rw [le_sub_iff_add_le']

end Sampling

namespace Scene

namespace PlaneScene

open View (PlaneView)

variable {α : Type} [IntegralScalar α] {s : PlaneScene α} {lo hi step a : α}

theorem multipleAbove_eq (a : α) (hstep : 0 < step) : ∃ c : ℤ, multipleAbove a step = .ok (c * step) ∧
    ∀ k : ℤ, c ≤ k ↔ a ≤ k * step := by
  refine ⟨-Scalar.floor (-(a / step)), ?_, fun k => ?_⟩
  · rw [multipleAbove, Scalar.divide_of_ne_zero hstep.ne', ok_bind, Scalar.ceil?, Scalar.whole_eq, ok_bind,
      LawfulScalar.ofInt_eq]
    rfl
  · rw [neg_le, IntegralScalar.le_floor_iff, Int.cast_neg, neg_le_neg_iff, div_le_iff₀ hstep]

/-- The numbers that are marked between two bounds, in their order. -/
structure Marked (lo hi step : α) (l : List α) : Prop where
  increasing : l.Pairwise (· < ·)
  mem_iff (a : α) : a ∈ l ↔
    (∃ k : ℤ, a = k * step) ∧ (lo ≤ a ∧ a ≤ hi + Sampling.slack step) ∧ 1 / 1000 < |a|

theorem marks_marked (lo hi : α) (hstep : 0 < step) : ∃ l, marks lo hi step = .ok l ∧ Marked lo hi step l := by
  obtain ⟨c, hc, habove⟩ := multipleAbove_eq lo hstep
  obtain ⟨n, hn, hbelow⟩ := Sampling.steps_eq (c * step) hi hstep
  have hthreshold : (0.001 : α) = 1 / 1000 := by
    rw [ExactScalar.scientific_eq]
    norm_num
  refine ⟨_, by rw [marks, hc, ok_bind, hn, ok_bind]; rfl, ?_, fun a => ?_⟩
  · refine List.Pairwise.filter _ (List.pairwise_map.mpr (List.pairwise_lt_range.imp fun hlt => ?_))
    exact add_lt_add_right (mul_lt_mul_of_pos_right (Nat.cast_lt.mpr hlt) hstep) _
  · rw [List.mem_filter, List.mem_map, decide_eq_true_iff, LawfulScalar.abs_eq, hthreshold, ← and_assoc]
    refine and_congr_left fun _ => ?_
    constructor
    · rintro ⟨k, hk, rfl⟩
      have hle := (hbelow k).mp (List.mem_range.mp hk)
      have heq : (c : α) * step + k * step = (c + k : ℤ) * step := by
        push_cast
        ring
      rw [heq] at hle ⊢
      exact ⟨⟨_, rfl⟩, (habove _).mp (by omega), hle⟩
    · rintro ⟨⟨k, rfl⟩, hlo, hhi⟩
      obtain ⟨j, rfl⟩ := Int.le.dest ((habove k).mpr hlo)
      have heq : (c : α) * step + j * step = (c + j : ℤ) * step := by
        push_cast
        ring
      exact ⟨j, List.mem_range.mpr ((hbelow j).mpr (heq ▸ hhi)), heq⟩

/-- Whether every multiple of the step between the bounds is among some numbers, but for the origin. -/
def Complete (lo hi step : α) (l : List α) : Prop :=
  ∀ k : ℤ, k ≠ 0 → lo ≤ k * step → k * step ≤ hi → k * step ∈ l

theorem Marked.complete_iff {l : List α} (h : Marked lo hi step l) (hstep : 0 < step) : Complete lo hi step l ↔
    ∀ k : ℤ, k ≠ 0 → lo ≤ k * step → k * step ≤ hi → 1 / 1000 < |k * step| := by
  have hslack : 0 < Sampling.slack step := mul_pos (Scalar.literal_pos 9 Nat.one_pos) hstep
  refine forall₂_congr fun k _ => forall₂_congr fun hlo hhi => ?_
  rw [h.mem_iff]
  exact ⟨fun hmem => hmem.2.2, fun hfar => ⟨⟨k, rfl⟩, ⟨hlo, hhi.trans (le_add_of_nonneg_right hslack.le)⟩, hfar⟩⟩

/-! ### Ticks and labels -/

def column (s : PlaneScene α) (x : α) : α :=
  (x - s.view.xMin) / PlaneView.spanX s.view * s.canvas.width

def row (s : PlaneScene α) (y : α) : α :=
  s.canvas.height - (y - s.view.yMin) / PlaneView.spanY s.view * s.canvas.height

theorem pixel_eq (hview : PlaneView.Open s.view) (x y : α) : s.pixel x y = .ok ⟨s.column x, s.row y⟩ :=
  PlaneView.toScreen_eq hview _ _ _ _

theorem pixel_origin (hview : PlaneView.Open s.view) : s.pixel 0.0 0.0 = .ok ⟨s.column 0, s.row 0⟩ := by
  rw [Scalar.literal_zero, pixel_eq hview]

/-- The tick at an abscissa. -/
def tickX (s : PlaneScene α) (x : α) : Item α :=
  let y := keepInside (s.row 0) 10.0 s.canvas.height
  ⟨.line ⟨s.column x, y - 5.0⟩ ⟨s.column x, y + 5.0⟩, ⟨s.palette.label, 0.5, 1.0⟩, .tick, 0.0⟩

/-- The tick at an ordinate. -/
def tickY (s : PlaneScene α) (y : α) : Item α :=
  let x := keepInside (s.column 0) 10.0 s.canvas.width
  ⟨.line ⟨x - 5.0, s.row y⟩ ⟨x + 5.0, s.row y⟩, ⟨s.palette.label, 0.5, 1.0⟩, .tick, 0.0⟩

/-- The number at an abscissa. -/
def labelX (s : PlaneScene α) (x : α) : Item α :=
  s.label .top ⟨s.column x, keepInside (s.row 0) 20.0 s.canvas.height + 8.0⟩ x

/-- The number at an ordinate. -/
def labelY (s : PlaneScene α) (y : α) : Item α :=
  s.label .right ⟨keepInside (s.column 0) 30.0 s.canvas.width - 8.0, s.row y⟩ y

/-- A tick is short enough for the margin that it is kept in. -/
theorem tick_within (a : α) {size : α} (hsize : 20 ≤ size) :
    (0 ≤ keepInside a 10.0 size - 5.0 ∧ keepInside a 10.0 size - 5.0 ≤ size) ∧
      0 ≤ keepInside a 10.0 size + 5.0 ∧ keepInside a 10.0 size + 5.0 ≤ size := by
  have hmargin : (10.0 : α) = 10 := by
    rw [ExactScalar.scientific_eq]
    norm_num
  have hreach : (5.0 : α) = 5 := by
    rw [ExactScalar.scientific_eq]
    norm_num
  rw [keepInside, hmargin, hreach, Scalar.smaller_eq_min, Scalar.larger_eq_max]
  have hlower : 10 ≤ min (max a 10) (size - 10) := le_min (le_max_right _ _) (by linarith)
  have hupper : min (max a 10) (size - 10) ≤ size - 10 := min_le_right _ _
  refine ⟨⟨?_, ?_⟩, ?_, ?_⟩ <;> linarith

theorem column_nonneg_iff (hview : PlaneView.Sound s.view) (hwidth : 0 < s.canvas.width) {x : α} :
    0 ≤ s.column x ↔ s.view.xMin ≤ x := by
  rw [column, mul_nonneg_iff_of_pos_right hwidth, le_div_iff₀ hview.spanX_pos, zero_mul, sub_nonneg]

theorem column_le_iff (hview : PlaneView.Sound s.view) (hwidth : 0 < s.canvas.width) {x : α} :
    s.column x ≤ s.canvas.width ↔ x ≤ s.view.xMax := by
  rw [column, mul_le_iff_le_one_left hwidth, div_le_one hview.spanX_pos, PlaneView.spanX, sub_le_sub_iff_right]

theorem row_le_iff (hview : PlaneView.Sound s.view) (hheight : 0 < s.canvas.height) {y : α} :
    s.row y ≤ s.canvas.height ↔ s.view.yMin ≤ y := by
  rw [row, sub_le_self_iff, mul_nonneg_iff_of_pos_right hheight, le_div_iff₀ hview.spanY_pos, zero_mul, sub_nonneg]

theorem row_nonneg_iff (hview : PlaneView.Sound s.view) (hheight : 0 < s.canvas.height) {y : α} :
    0 ≤ s.row y ↔ y ≤ s.view.yMax := by
  rw [row, sub_nonneg, mul_le_iff_le_one_left hheight, div_le_one hview.spanY_pos, PlaneView.spanY,
    sub_le_sub_iff_right]

section

variable (hview : PlaneView.Sound s.view) (hwidth : 20 ≤ s.canvas.width) (hheight : 20 ≤ s.canvas.height)
  {l : List α}

include hview hwidth hheight

/-- Marks that only the slack lets in lie beyond the canvas, which cuts their ticks off. -/
theorem ticksX_eq (hstep : s.spacingX = .ok step) (hmarks : marks s.view.xMin s.view.xMax step = .ok l)
    (hl : ∀ x ∈ l, s.view.xMin ≤ x) : s.ticksX = .ok ((l.filter (· ≤ s.view.xMax)).map s.tickX) := by
  have hwidthPos : 0 < s.canvas.width := by linarith
  obtain ⟨hupper, hlower⟩ := tick_within (s.row 0) hheight
  rw [ticksX, pixel_origin hview.isOpen, ok_bind, hstep, ok_bind, hmarks, ok_bind]
  refine flatMapM_eq_filter fun x hx => ?_
  rw [pixel_eq hview.isOpen, ok_bind]
  have hleft := (column_nonneg_iff hview hwidthPos).mpr (hl x hx)
  split
  · next hle =>
    have hright := (column_le_iff hview hwidthPos).mpr hle
    refine Canvas.line_of_covers (c := s.canvas) ?_ ?_
    · exact Canvas.covers_iff.mpr ⟨⟨hleft, hright⟩, hupper⟩
    · exact Canvas.covers_iff.mpr ⟨⟨hleft, hright⟩, hlower⟩
  · next hlt =>
    have hbeyond : 0 < s.column x - s.canvas.width :=
      sub_pos.mpr (not_le.mp fun hle => hlt ((column_le_iff hview hwidthPos).mp hle))
    exact Canvas.line_of_beyond ⟨by linarith, by linarith⟩ .right hbeyond hbeyond

theorem ticksY_eq (hstep : s.spacingY = .ok step) (hmarks : marks s.view.yMin s.view.yMax step = .ok l)
    (hl : ∀ y ∈ l, s.view.yMin ≤ y) : s.ticksY = .ok ((l.filter (· ≤ s.view.yMax)).map s.tickY) := by
  have hheightPos : 0 < s.canvas.height := by linarith
  obtain ⟨hleft, hright⟩ := tick_within (s.column 0) hwidth
  rw [ticksY, pixel_origin hview.isOpen, ok_bind, hstep, ok_bind, hmarks, ok_bind]
  refine flatMapM_eq_filter fun y hy => ?_
  rw [pixel_eq hview.isOpen, ok_bind]
  have hlower := (row_le_iff hview hheightPos).mpr (hl y hy)
  split
  · next hle =>
    have hupper := (row_nonneg_iff hview hheightPos).mpr hle
    refine Canvas.line_of_covers (c := s.canvas) ?_ ?_
    · exact Canvas.covers_iff.mpr ⟨hleft, hupper, hlower⟩
    · exact Canvas.covers_iff.mpr ⟨hright, hupper, hlower⟩
  · next hlt =>
    have hbeyond : 0 < s.canvas.rect.top - s.row y := by
      rw [Canvas.rect, Rect.ofSize, Scalar.literal_zero, sub_pos]
      exact not_le.mp fun hle => hlt ((row_nonneg_iff hview hheightPos).mp hle)
    exact Canvas.line_of_beyond ⟨by linarith, by linarith⟩ .top hbeyond hbeyond

omit hwidth hheight

theorem labelsX_eq (hstep : s.spacingX = .ok step) (hmarks : marks s.view.xMin s.view.xMax step = .ok l) :
    s.labelsX = .ok (l.map s.labelX) := by
  rw [labelsX, pixel_origin hview.isOpen, ok_bind, hstep, ok_bind, hmarks, ok_bind]
  refine mapM_eq_map _ fun x _ => ?_
  rw [pixel_eq hview.isOpen]
  rfl

theorem labelsY_eq (hstep : s.spacingY = .ok step) (hmarks : marks s.view.yMin s.view.yMax step = .ok l) :
    s.labelsY = .ok (l.map s.labelY) := by
  rw [labelsY, pixel_origin hview.isOpen, ok_bind, hstep, ok_bind, hmarks, ok_bind]
  refine mapM_eq_map _ fun y _ => ?_
  rw [pixel_eq hview.isOpen]
  rfl

end

/-! ### The whole scene -/

theorem part_eq {β : Type} {c : Prop} [Decidable c] {m : Except Fault (List β)} {part l : List β}
    (h : (if c then m else .ok []) = .ok part) (hm : c → m = .ok l) : part = if c then l else [] := by
  split at h
  · next hc => rw [if_pos hc, Except.ok.inj ((hm hc).symm.trans h)]
  · next hc => rw [if_neg hc, Except.ok.inj h]

section

variable {items ticksX ticksY labelsX labelsY : List (Item α)}

theorem axes_filter (h : s.axes = .ok items) (hx : s.showsAxisX = true → s.ticksX = .ok ticksX)
    (hy : s.showsAxisY = true → s.ticksY = .ok ticksY) : items.filter (·.role = .tick) =
      (if s.showsAxisX then ticksX else []) ++ if s.showsAxisY then ticksY else [] := by
  obtain ⟨axisX, haxisX, h⟩ := branch_eq_ok.mp h
  obtain ⟨axisY, haxisY, h⟩ := branch_eq_ok.mp h
  obtain ⟨partX, hpartX, h⟩ := branch_eq_ok.mp h
  obtain ⟨partY, hpartY, h⟩ := branch_eq_ok.mp h
  obtain rfl := pure_eq_ok.mp h
  have hshows := shows_anything s.canvas
  have hline (p q : α × α) : Emits (Plays (fun _ => True) [.axisGlow, .axis]) (s.axisLine p q) :=
    axisLine_drawn hshows (by decide) (by decide) p q
  rw [List.filter_append, List.filter_append, List.filter_append,
    (hline _ _).optional.filter_absent .tick haxisX (by decide),
    (hline _ _).optional.filter_absent .tick haxisY (by decide),
    (ticksX_drawn hshows (by decide)).optional.filter_all hpartX,
    (ticksY_drawn hshows (by decide)).optional.filter_all hpartY, part_eq hpartX hx, part_eq hpartY hy]
  rfl

theorem labels_eq (h : s.labels = .ok items) (hx : s.showsAxisX = true → s.labelsX = .ok labelsX)
    (hy : s.showsAxisY = true → s.labelsY = .ok labelsY) :
    items = (if s.showsAxisX then labelsX else []) ++ if s.showsAxisY then labelsY else [] := by
  obtain ⟨partX, hpartX, h⟩ := branch_eq_ok.mp h
  obtain ⟨partY, hpartY, h⟩ := branch_eq_ok.mp h
  obtain rfl := pure_eq_ok.mp h
  rw [part_eq hpartX hx, part_eq hpartY hy]

theorem build_filter (h : s.build = .ok items) : ∃ axes labels, s.axes = .ok axes ∧ s.labels = .ok labels ∧
    items.filter (·.role = .tick) = axes.filter (·.role = .tick) ∧ items.filter (·.role = .label) = labels := by
  obtain ⟨grid, hgrid, h⟩ := bind_eq_ok.mp h
  obtain ⟨axes, haxes, h⟩ := bind_eq_ok.mp h
  obtain ⟨heatmap, hheatmap, h⟩ := branch_eq_ok.mp h
  obtain ⟨content, hcontent, h⟩ := bind_eq_ok.mp h
  obtain ⟨contours, hcontours, h⟩ := branch_eq_ok.mp h
  obtain ⟨labels, hlabels, h⟩ := bind_eq_ok.mp h
  obtain rfl := pure_eq_ok.mp h
  have hshows := shows_anything s.canvas
  have htiles : Emits (Plays (fun _ => True) [.heatmap, .colourBar]) s.heatmap := heatmap_drawn
  have hnumbers : Emits (Plays (fun _ => True) [.label]) s.labels := labels_drawn
  refine ⟨axes, labels, haxes, hlabels, ?_, ?_⟩
  · simp only [List.filter_append, (grid_drawn hshows).filter_absent .tick hgrid (by decide),
      htiles.optional.filter_absent .tick hheatmap (by decide),
      (content_drawn hshows).filter_absent .tick hcontent (by decide),
      (contours_drawn hshows).optional.filter_absent .tick hcontours (by decide),
      hnumbers.filter_absent .tick hlabels (by decide), List.nil_append, List.append_nil]
  · simp only [List.filter_append, (grid_drawn hshows).filter_absent .label hgrid (by decide),
      (axes_drawn hshows).filter_absent .label haxes (by decide),
      htiles.optional.filter_absent .label hheatmap (by decide),
      (content_drawn hshows).filter_absent .label hcontent (by decide),
      (contours_drawn hshows).optional.filter_absent .label hcontours (by decide), hnumbers.filter_all hlabels,
      List.nil_append]

end

/-- What is marked along an axis of a window that reaches from `lo` to `hi`. -/
structure AxisMarks (lo hi step : α) (l : List α) : Prop extends Marked lo hi step l where
  spacing : Sampling.gridSpacing (hi - lo) 8 = .ok step
  pos : 0 < step
  complete_iff : Complete lo hi step l ↔
    ∀ k : ℤ, k ≠ 0 → lo ≤ k * step → k * step ≤ hi → 1 / 1000 < |k * step|

theorem axisMarks (hlt : lo < hi) : ∃ step l, Sampling.gridSpacing (Scalar.abs (hi - lo)) 8 = .ok step ∧
    marks lo hi step = .ok l ∧ AxisMarks lo hi step l := by
  have habs : Scalar.abs (hi - lo) = hi - lo := by rw [LawfulScalar.abs_eq, abs_of_pos (sub_pos.mpr hlt)]
  obtain ⟨step, hspacing, hstep⟩ := Sampling.gridSpacing_pos (hi - lo) (by decide : (0 : ℤ) < 8)
  obtain ⟨l, hmarks, hmarked⟩ := marks_marked lo hi hstep
  refine ⟨step, l, ?_, hmarks, ⟨hmarked, hspacing, hstep, hmarked.complete_iff hstep⟩⟩
  rwa [habs]

/-- A plot with room for the marks at its axes, in any window. -/
structure HasRoom (s : PlaneScene α) : Prop where
  evaluates : Evaluates s.request s.samples
  palette : s.palette.Sound
  detail : s.detail.Sound
  width : 20 ≤ s.canvas.width
  height : 20 ≤ s.canvas.height

theorem HasRoom.sound (h : s.HasRoom) (hview : PlaneView.Sound s.view) : s.Sound :=
  ⟨h.evaluates, hview, h.palette, h.detail, by linarith [h.width], by linarith [h.height]⟩

theorem ne_zero_of_divide {b c : α} (h : Scalar.divide a b = .ok c) : b ≠ 0 := by
  rintro rfl
  rw [Scalar.divide, if_pos (Scalar.beq_zero_iff.mpr rfl)] at h
  cases h

theorem open_of_axisLine {p q : α × α} {items : List (Item α)} (h : s.axisLine p q = .ok items) :
    PlaneView.Open s.view := by
  obtain ⟨glow, hglow, -⟩ := bind_eq_ok.mp h
  obtain ⟨pixel, hpixel, -⟩ := bind_eq_ok.mp hglow
  obtain ⟨column, hcolumn, hpixel⟩ := bind_eq_ok.mp hpixel
  obtain ⟨row, hrow, -⟩ := bind_eq_ok.mp hpixel
  exact ⟨ne_zero_of_divide hcolumn, ne_zero_of_divide hrow⟩

/-- A window without extent has no place for an axis. -/
theorem open_of_build (hshows : s.showsAxisX = true ∨ s.showsAxisY = true) (hbuild : Returns s.build) :
    PlaneView.Open s.view := by
  obtain ⟨items, hitems⟩ := hbuild
  obtain ⟨axes, labels, haxes, -⟩ := build_filter hitems
  obtain ⟨axisX, haxisX, haxes⟩ := branch_eq_ok.mp haxes
  obtain ⟨axisY, haxisY, -⟩ := branch_eq_ok.mp haxes
  rcases hshows with hshows | hshows
  · rw [if_pos hshows] at haxisX
    exact open_of_axisLine haxisX
  · rw [if_pos hshows] at haxisY
    exact open_of_axisLine haxisY

/-- The ticks and the numbers of a scene are those of its axes. -/
theorem build_marks (h : s.HasRoom) (hview : PlaneView.Sound s.view) {stepX stepY : α} {marksX marksY : List α}
    (hstepX : s.spacingX = .ok stepX) (hmarksX : marks s.view.xMin s.view.xMax stepX = .ok marksX)
    (hx : Marked s.view.xMin s.view.xMax stepX marksX)
    (hstepY : s.spacingY = .ok stepY) (hmarksY : marks s.view.yMin s.view.yMax stepY = .ok marksY)
    (hy : Marked s.view.yMin s.view.yMax stepY marksY) :
    ∃ items, s.build = .ok items ∧
      items.filter (·.role = .tick) =
        (if s.showsAxisX then (marksX.filter (· ≤ s.view.xMax)).map s.tickX else []) ++
          (if s.showsAxisY then (marksY.filter (· ≤ s.view.yMax)).map s.tickY else []) ∧
      items.filter (·.role = .label) =
        (if s.showsAxisX then marksX.map s.labelX else []) ++ if s.showsAxisY then marksY.map s.labelY else [] := by
  obtain ⟨items, hitems⟩ := build_returns (h.sound hview)
  obtain ⟨axes, labels, haxes, hlabels, hticks, hnumbers⟩ := build_filter hitems
  have hlowerX : ∀ x ∈ marksX, s.view.xMin ≤ x := fun x hmem => ((hx.mem_iff x).mp hmem).2.1.1
  have hlowerY : ∀ y ∈ marksY, s.view.yMin ≤ y := fun y hmem => ((hy.mem_iff y).mp hmem).2.1.1
  refine ⟨items, hitems, ?_, ?_⟩
  · rw [hticks]
    exact axes_filter haxes (fun _ => ticksX_eq hview h.width h.height hstepX hmarksX hlowerX)
      fun _ => ticksY_eq hview h.width h.height hstepY hmarksY hlowerY
  · rw [hnumbers]
    exact labels_eq hlabels (fun _ => labelsX_eq hview hstepX hmarksX) fun _ => labelsY_eq hview hstepY hmarksY

/-- Ticks and numbers stand at the multiples of the spacing in the window which are not close to the origin, and
the slack lets in only numbers beyond it. No multiple is left out exactly if none of them is close to the origin. -/
theorem marks_at_multiples (h : s.HasRoom) :
    (s.showsAxisX = true ∨ s.showsAxisY = true → Returns s.build → PlaneView.Open s.view) ∧
    (PlaneView.Sound s.view → ∃ items stepX marksX stepY marksY, s.build = .ok items ∧
      AxisMarks s.view.xMin s.view.xMax stepX marksX ∧ AxisMarks s.view.yMin s.view.yMax stepY marksY ∧
      items.filter (·.role = .tick) =
        (if s.showsAxisX then (marksX.filter (· ≤ s.view.xMax)).map s.tickX else []) ++
          (if s.showsAxisY then (marksY.filter (· ≤ s.view.yMax)).map s.tickY else []) ∧
      items.filter (·.role = .label) =
        (if s.showsAxisX then marksX.map s.labelX else []) ++
          if s.showsAxisY then marksY.map s.labelY else []) := by
  refine ⟨open_of_build, fun hview => ?_⟩
  obtain ⟨stepX, marksX, hstepX, hmarksX, hx⟩ := axisMarks hview.xMin_lt
  obtain ⟨stepY, marksY, hstepY, hmarksY, hy⟩ := axisMarks hview.yMin_lt
  obtain ⟨items, hitems, hticks, hlabels⟩ :=
    build_marks h hview hstepX hmarksX hx.toMarked hstepY hmarksY hy.toMarked
  exact ⟨items, stepX, marksX, stepY, marksY, hitems, hx, hy, hticks, hlabels⟩

/-- The saddle in a window that ends at `reach` in each direction. -/
def saddleWithin (reach : ℚ) : PlaneScene ℚ :=
  ⟨saddle, saddle.samples, ⟨-reach, reach, -reach, reach⟩, Palette.ofTable Settings.appearanceDefaults,
    Detail.ofTable (Settings.samplingDefaults : Settings.Table ℚ), Canvas.ofSize 640 480⟩

theorem marks_at_multiples_saddle : ∃ items stepX marksX, (saddleWithin 5).build = .ok items ∧
    AxisMarks (-5 : ℚ) 5 stepX marksX := by
  have hroom : (saddleWithin 5).HasRoom := {
    evaluates := saddle_evaluates
    palette := Palette.default_sound
    detail := Detail.default_sound
    width := by decide +kernel
    height := by decide +kernel }
  have hview : PlaneView.Sound (saddleWithin 5).view := ⟨by decide +kernel, by decide +kernel⟩
  obtain ⟨items, stepX, marksX, -, -, hitems, hx, -⟩ := (marks_at_multiples hroom).2 hview
  exact ⟨items, stepX, marksX, hitems, hx⟩

theorem Marked.eq_nil {l : List α} (h : Marked lo hi step l)
    (hnear : ∀ a, lo ≤ a → a ≤ hi + Sampling.slack step → |a| ≤ 1 / 1000) : l = [] := by
  refine List.eq_nil_iff_forall_not_mem.mpr fun a ha => ?_
  obtain ⟨-, ⟨hlo, hhi⟩, hfar⟩ := (h.mem_iff a).mp ha
  exact absurd (hnear a hlo hhi) (not_le.mpr hfar)

/-- The product of the coordinates in a window of 8 steps around the origin, each of them a ten-thousandth. -/
noncomputable def closeUp : PlaneScene ℝ :=
  ⟨saddle, ⟨fun p => .ok (some (p.x * p.y)), fun _ => .ok ⟨none, none, none⟩⟩, ⟨-0.0004, 0.0004, -0.0004, 0.0004⟩,
    Palette.ofTable Settings.appearanceDefaults, Detail.ofTable (Settings.samplingDefaults : Settings.Table ℝ),
    Canvas.ofSize 640.0 480.0⟩

theorem decade_ten_thousandth : Scalar.decade (1 / 10000 : ℝ) = .ok (1 / 10000) := by
  have hpower : (1 / 10000 : ℝ) = 10 ^ (-4 : ℤ) := by norm_num
  have hlog : Scalar.log10 (1 / 10000 : ℝ) = ((-4 : ℤ) : ℝ) := by
    show Real.logb 10 (1 / 10000) = _
    rw [hpower, ← Real.rpow_intCast, Real.logb_rpow (by norm_num) (by norm_num)]
  have hfloor : Scalar.floor ((-4 : ℤ) : ℝ) = -4 := Int.floor_intCast (-4)
  have hpos : (0.0 : ℝ) < 1 / 10000 := by norm_num
  rw [Scalar.decade, if_pos hpos, Scalar.floor?, Scalar.whole_eq, hlog, hfloor, ok_bind, LawfulScalar.tenTo_eq,
    ← hpower]
  rfl

theorem gridSpacing_close_up : Sampling.gridSpacing (Scalar.abs (0.0004 - -0.0004 : ℝ)) 8 = .ok (1 / 10000) := by
  have hspan : Scalar.abs (0.0004 - -0.0004 : ℝ) = 8 / 10000 := by
    rw [LawfulScalar.abs_eq, abs_of_pos] <;> norm_num
  have hrough : (8 / 10000 / ((8 : ℤ) : ℝ)) = 1 / 10000 := by norm_num
  have hcond : (decide ((0.0 : ℝ) < 8 / 10000) && Scalar.isFinite (8 / 10000 : ℝ)) = true := by
    rw [LawfulScalar.isFinite_eq, Bool.and_true, decide_eq_true_iff]
    norm_num
  have hleading : (1 / 10000 / (1 / 10000) : ℝ) ≤ 1.0 := by norm_num
  rw [hspan, Sampling.gridSpacing, if_pos hcond, Scalar.ofInt?_eq, ok_bind,
    Scalar.divide_of_ne_zero (by norm_num), ok_bind, hrough, decade_ten_thousandth, ok_bind,
    Scalar.divide_of_ne_zero (by norm_num), ok_bind]
  dsimp only
  rw [if_pos hleading, Scalar.literal_one, one_mul]
  rfl

theorem marks_close_up : marks (-0.0004 : ℝ) 0.0004 (1 / 10000) = .ok [] ∧
    Marked (-0.0004 : ℝ) 0.0004 (1 / 10000) [] := by
  obtain ⟨l, hl, hmarked⟩ := marks_marked (-0.0004 : ℝ) 0.0004 (by norm_num : (0 : ℝ) < 1 / 10000)
  have hnone : l = [] := by
    refine hmarked.eq_nil fun a hlo hhi => ?_
    rw [Sampling.slack_eq] at hhi
    rw [abs_le]
    constructor <;> linarith
  exact hnone ▸ ⟨hl, hmarked⟩

/-- The window holds multiples of the spacing besides the origin, and none of them has a tick or a number. -/
theorem no_marks_in_close_up : ∃ items, closeUp.build = .ok items ∧ closeUp.spacingX = .ok (1 / 10000) ∧
    (closeUp.showsAxisX = true ∧ (1 / 10000 : ℝ) ∈ Set.Icc closeUp.view.xMin closeUp.view.xMax) ∧
    items.filter (·.role = .tick) = [] ∧ items.filter (·.role = .label) = [] := by
  have hsize {a : ℝ} (ha : 20 ≤ a) : 20 ≤ Scalar.larger 1.0 a := by
    rw [Scalar.larger_eq_max]
    exact le_max_of_le_right ha
  have hroom : closeUp.HasRoom := {
    evaluates := ⟨fun _ _ => .ok _, fun _ _ => .ok _⟩
    palette := Palette.default_sound
    detail := Detail.default_sound
    width := hsize (by norm_num)
    height := hsize (by norm_num) }
  have hview : PlaneView.Sound closeUp.view := ⟨by norm_num [closeUp], by norm_num [closeUp]⟩
  obtain ⟨hmarks, hmarked⟩ := marks_close_up
  obtain ⟨items, hitems, hticks, hlabels⟩ :=
    build_marks hroom hview gridSpacing_close_up hmarks hmarked gridSpacing_close_up hmarks hmarked
  refine ⟨items, hitems, gridSpacing_close_up, ⟨?_, by norm_num [closeUp]⟩, ?_, ?_⟩
  · rw [showsAxisX, Bool.and_eq_true, decide_eq_true_iff, decide_eq_true_iff]
    norm_num [closeUp]
  · rw [hticks]
    simp
  · rw [hlabels]
    simp

end PlaneScene

end Scene

end FieldPlot
