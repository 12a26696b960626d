import FieldPlot.Proofs.Scene.Faultless
import FieldPlot.Proofs.Scene.PlaneTotality
import FieldPlot.Proofs.View.Screen

/-! Where a heatmap shows its samples. The cells divide the canvas as the samples divide the window, though
the ones are counted along the rows of the canvas and the others along the ordinates: each cell with a value is
painted once, around the place of the point that it was sampled at. -/

namespace FieldPlot

/-- Whether a place belongs to a rectangle, which has its left and its upper side but not the other two. -/
structure Rect.Owns {α : Type} [ExactScalar α] (r : Rect α) (p : Pixel α) : Prop where
  left : r.left ≤ p.x
  right : p.x < r.right
  top : r.top ≤ p.y
  bottom : p.y < r.bottom

namespace Scene

open View (PlaneView)

/-- The corners of a polygon. -/
def Shape.polygon? {α : Type} : Shape α → Option (List (Pixel α))
  | .polygon corners _ => some corners
  | _ => none

/-- The corners of the polygons among some items. -/
def polygons {α : Type} (items : List (Item α)) : List (List (Pixel α)) :=
  items.filterMap (·.shape.polygon?)

namespace PlaneScene

/-! ### Equal steps -/

section

variable {α : Type} [LawfulScalar α] {a step : α} {m n : ℕ}

theorem exists_step (ha : 0 ≤ a) (hlt : a < n * step) : ∃ k < n, k * step ≤ a ∧ a < (k + 1) * step := by
  induction n with
  | zero => simp [ha.not_gt] at hlt
  | succ n ih =>
    rcases lt_or_ge a (n * step) with hbelow | habove
    · obtain ⟨k, hk, hstep⟩ := ih hbelow
      exact ⟨k, hk.trans_le n.le_succ, hstep⟩
    · exact ⟨n, n.lt_succ_self, habove, by simpa using hlt⟩

theorem step_unique (hstep : 0 < step) (hm : m * step ≤ a ∧ a < (m + 1) * step)
    (hn : n * step ≤ a ∧ a < (n + 1) * step) : m = n := by
  have hbefore {j k : ℕ} (hj : j * step ≤ a) (hk : a < (k + 1) * step) : j ≤ k := by
    have hlt : (j : α) < ((k + 1 : ℕ) : α) := by
      push_cast
      exact lt_of_mul_lt_mul_right (hj.trans_lt hk) hstep.le
    exact Nat.lt_succ_iff.mp (Nat.cast_lt.mp hlt)
  exact le_antisymm (hbefore hm.1 hn.2) (hbefore hn.1 hm.2)

end

section

variable {α : Type} [LawfulScalar α] {s : PlaneScene α} {n : ℕ}

/-! ### Cells -/

/-- The place of a cell on the canvas, one of `n` along each side. Its rows are counted from below. -/
def cell (s : PlaneScene α) (n i j : ℕ) : Rect α :=
  let width := s.canvas.width / n
  let height := s.canvas.height / n
  let left := i * width
  let top := s.canvas.height - (j + 1) * height
  ⟨left, top, left + width, top + height⟩

theorem tile_eq (s : PlaneScene α) (n i j : ℕ) : s.tile (s.canvas.width / n) (s.canvas.height / n) i j =
    [⟨(s.cell n i j).left, (s.cell n i j).top⟩, ⟨(s.cell n i j).right + 1, (s.cell n i j).top⟩,
      ⟨(s.cell n i j).right + 1, (s.cell n i j).bottom + 1⟩, ⟨(s.cell n i j).left, (s.cell n i j).bottom + 1⟩] := by
  simp only [tile, cell, Scalar.ofNat_eq, Scalar.literal_one, Nat.cast_add, Nat.cast_one]

/-- Counted from above, the rows of the cells are steps as their columns are. -/
theorem cell_owns_iff {i j : ℕ} (hj : j < n) {p : Pixel α} : (s.cell n i j).Owns p ↔
    (i * (s.canvas.width / n) ≤ p.x ∧ p.x < (i + 1) * (s.canvas.width / n)) ∧
      (n - 1 - j : ℕ) * (s.canvas.height / n) ≤ p.y ∧ p.y < ((n - 1 - j : ℕ) + 1) * (s.canvas.height / n) := by
  have hn : (n : α) ≠ 0 := Nat.cast_ne_zero.mpr (by omega)
  have hheight : s.canvas.height = n * (s.canvas.height / n) := (mul_div_cancel₀ _ hn).symm
  have hrow : ((n - 1 - j : ℕ) : α) = n - (j + 1) := by
    rw [Nat.sub_sub, add_comm 1 j, Nat.cast_sub hj, Nat.cast_succ]
  rw [hrow]
  constructor
  · rintro ⟨hleft, hright, htop, hbottom⟩
    simp only [cell] at hleft hright htop hbottom
    refine ⟨⟨hleft, ?_⟩, ?_, ?_⟩ <;> linarith
  · rintro ⟨⟨hleft, hright⟩, habove, hbelow⟩
    constructor <;> simp only [cell] <;> linarith

theorem canvas_owns_iff {p : Pixel α} : s.canvas.rect.Owns p ↔
    (0 ≤ p.x ∧ p.x < s.canvas.width) ∧ 0 ≤ p.y ∧ p.y < s.canvas.height := by
  rw [← Scalar.literal_zero]
  exact ⟨fun ⟨hleft, hright, htop, hbottom⟩ => ⟨⟨hleft, hright⟩, htop, hbottom⟩,
    fun ⟨⟨hleft, hright⟩, htop, hbottom⟩ => ⟨hleft, hright, htop, hbottom⟩⟩

theorem bounds_of_step {a size : α} {k : ℕ} (hsize : 0 < size) (hk : k < n)
    (ha : k * (size / n) ≤ a ∧ a < (k + 1) * (size / n)) : 0 ≤ a ∧ a < size := by
  have hn : (0 : α) < n := Nat.cast_pos.mpr (k.zero_le.trans_lt hk)
  have hstep : 0 < size / n := div_pos hsize hn
  refine ⟨(mul_nonneg k.cast_nonneg hstep.le).trans ha.1, ha.2.trans_le ?_⟩
  calc ((k : α) + 1) * (size / n) ≤ n * (size / n) :=
        mul_le_mul_of_nonneg_right (by exact_mod_cast Nat.succ_le_of_lt hk) hstep.le
    _ = size := mul_div_cancel₀ _ hn.ne'

/-- The cells cover the canvas without a gap, and no two of them overlap. -/
theorem cells_tile (hn : 0 < n) (hwidth : 0 < s.canvas.width) (hheight : 0 < s.canvas.height) (p : Pixel α) :
    s.canvas.rect.Owns p ↔ ∃! c : ℕ × ℕ, (c.1 < n ∧ c.2 < n) ∧ (s.cell n c.1 c.2).Owns p := by
  have hcast : (0 : α) < n := Nat.cast_pos.mpr hn
  rw [canvas_owns_iff]
  constructor
  · rintro ⟨⟨hleft, hright⟩, htop, hbottom⟩
    rw [← mul_div_cancel₀ s.canvas.width hcast.ne'] at hright
    rw [← mul_div_cancel₀ s.canvas.height hcast.ne'] at hbottom
    obtain ⟨i, hi, hcolumn⟩ := exists_step hleft hright
    obtain ⟨k, hk, hrow⟩ := exists_step htop hbottom
    have hj : n - 1 - (n - 1 - k) = k := by omega
    refine ⟨(i, n - 1 - k), ⟨⟨hi, by omega⟩, (cell_owns_iff (by omega)).mpr ⟨hcolumn, by rwa [hj]⟩⟩, ?_⟩
    rintro ⟨i', j'⟩ ⟨⟨hi', hj'⟩, howns⟩
    obtain ⟨hcolumn', hrow'⟩ := (cell_owns_iff hj').mp howns
    have hi_eq : i' = i := step_unique (div_pos hwidth hcast) hcolumn' hcolumn
    have hk_eq : n - 1 - j' = k := step_unique (div_pos hheight hcast) hrow' hrow
    dsimp only at hj'
    rw [hi_eq, ← hk_eq, Prod.mk.injEq]
    omega
  · rintro ⟨⟨i, j⟩, ⟨⟨hi, hj⟩, howns⟩, -⟩
    obtain ⟨hcolumn, hrow⟩ := (cell_owns_iff hj).mp howns
    dsimp only at hi hj
    exact ⟨bounds_of_step hwidth hi hcolumn, bounds_of_step hheight (by omega) hrow⟩

/-- The centre of a cell in the window. -/
def sampledPoint (s : PlaneScene α) (n i j : ℕ) : Point α :=
  ⟨s.view.xMin + PlaneView.spanX s.view * (i + 0.5) / n, s.view.yMin + PlaneView.spanY s.view * (j + 0.5) / n, 0⟩

theorem pixel_sampledPoint (hview : PlaneView.Open s.view) (hn : 0 < n) (i j : ℕ) :
    s.pixel (s.sampledPoint n i j).x (s.sampledPoint n i j).y =
      .ok ⟨((s.cell n i j).left + (s.cell n i j).right) / 2, ((s.cell n i j).top + (s.cell n i j).bottom) / 2⟩ := by
  have hx := hview.spanX
  have hy := hview.spanY
  have hcast : (n : α) ≠ 0 := Nat.cast_ne_zero.mpr hn.ne'
  have hcolumn : (s.sampledPoint n i j).x - s.view.xMin = PlaneView.spanX s.view * ((i + 1 / 2) / n) := by
    rw [sampledPoint, Scalar.literal_half, add_sub_cancel_left, mul_div_assoc]
  have hrow : (s.sampledPoint n i j).y - s.view.yMin = PlaneView.spanY s.view * ((j + 1 / 2) / n) := by
    rw [sampledPoint, Scalar.literal_half, add_sub_cancel_left, mul_div_assoc]
  rw [pixel, PlaneView.toScreen_eq hview, hcolumn, hrow, mul_div_cancel_left₀ _ hx, mul_div_cancel_left₀ _ hy]
  simp only [cell, Except.ok.injEq, Pixel.mk.injEq]
  constructor <;> ring

/-! ### Samples -/

theorem centres_eq (lo hi : α) (hn : 0 < n) :
    Sampling.centres lo hi n = .ok ((List.range n).map fun k : ℕ => lo + (hi - lo) * (k + 0.5) / n) := by
  have hcast : (n : α) ≠ 0 := Nat.cast_ne_zero.mpr hn.ne'
  rw [Sampling.centres, Scalar.listLength_eq, ok_bind, Int.toNat_natCast]
  refine mapM_eq_map _ fun k _ => ?_
  rw [LawfulScalar.ofInt_eq, Int.cast_natCast, Scalar.divide_of_ne_zero hcast, Scalar.ofNat_eq]
  rfl

/-- What is sampled in `n` rows and columns of cells, column by column. -/
def table (n : ℕ) (sample : ℕ → ℕ → Option α) : List (List (Option α)) :=
  (List.range n).map fun i => (List.range n).map fun j => sample i j

theorem sampling_eq (hn : 0 < n) {f : Point α → Except Fault (Option α)} {sample : ℕ → ℕ → Option α}
    (hsample : ∀ i < n, ∀ j < n, f (s.sampledPoint n i j) = .ok (sample i j)) :
    Sampling.heatmap f s.view n = .ok (table n sample) := by
  rw [Sampling.heatmap, centres_eq _ _ hn, ok_bind, centres_eq _ _ hn, ok_bind, List.mapM_map, table]
  refine mapM_eq_map _ fun i hi => ?_
  rw [Function.comp_apply, List.mapM_map]
  refine mapM_eq_map _ fun j hj => ?_
  rw [Function.comp_apply, Scalar.literal_zero]
  exact hsample i (List.mem_range.mp hi) j (List.mem_range.mp hj)

theorem zipIdx_map_range {β : Type} (f : ℕ → β) (n : ℕ) :
    ((List.range n).map f).zipIdx = (List.range n).map fun i => (f i, i) := by
  refine List.ext_getElem (by simp) fun i _ _ => ?_
  simp

/-- The tiles of the cells with a value, column by column. -/
def tiles (s : PlaneScene α) (n : ℕ) (sample : ℕ → ℕ → Option α) : List (List (Pixel α)) :=
  (List.range n).flatMap fun i => (List.range n).flatMap fun j =>
    if (sample i j).isSome then [s.tile (s.canvas.width / n) (s.canvas.height / n) i j] else []

theorem heatmapTiles_polygons (hpalette : s.palette.Sound) (hn : 0 < n) (lo hi : α)
    (sample : ℕ → ℕ → Option α) :
    ∃ items, s.heatmapTiles n lo hi (table n sample) = .ok items ∧ polygons items = s.tiles n sample := by
  have hcast : (n : α) ≠ 0 := Nat.cast_ne_zero.mpr hn.ne'
  obtain ⟨opacity, hopacity⟩ := hpalette.heatmapOpacity
  rw [heatmapTiles, Scalar.ofInt?_eq, ok_bind, Int.cast_natCast, Scalar.divide_of_ne_zero hcast, ok_bind,
    Scalar.divide_of_ne_zero hcast, ok_bind, hopacity, ok_bind, table, zipIdx_map_range]
  refine flatMapM_filterMap fun i _ => ?_
  dsimp only
  rw [zipIdx_map_range]
  refine flatMapM_filterMap fun j _ => ?_
  dsimp only
  cases sample i j with
  | none => exact ⟨[], rfl, rfl⟩
  | some value =>
    obtain ⟨t, ht⟩ := normalise_returns value lo hi
    obtain ⟨colour, hcolour⟩ := Palette.jet_returns hpalette t
    dsimp only
    rw [ht, ok_bind, hcolour]
    exact ⟨_, rfl, rfl⟩

theorem polygons_colourBar (c : Canvas α) (palette : Palette α) (shown : Bool) (lo hi : α) :
    polygons (c.colourBar palette shown lo hi) = [] := by
  unfold Canvas.colourBar
  split <;> rfl

/-- Without any value there is no range of values, and nothing is painted. -/
theorem tiles_of_no_values {sample : ℕ → ℕ → Option α}
    (h : (table n sample).flatMap (·.filterMap id) = []) : s.tiles n sample = [] := by
  refine List.flatMap_eq_nil_iff.mpr fun i hi => List.flatMap_eq_nil_iff.mpr fun j hj => ?_
  have hcolumn := List.flatMap_eq_nil_iff.mp h _ (List.mem_map_of_mem hi)
  have hnone : sample i j = none := List.filterMap_eq_nil_iff.mp hcolumn _ (List.mem_map_of_mem hj)
  rw [hnone]
  rfl

theorem heatmap_polygons (hpalette : s.palette.Sound) (hfills : s.fillsPlane = true) (hn : 0 < n)
    (hcells : s.detail.heatmapGrid = .ok (n : ℤ)) {sample : ℕ → ℕ → Option α}
    (hsample : ∀ i < n, ∀ j < n, s.shownScalar (s.sampledPoint n i j) = .ok (sample i j)) :
    ∃ items, s.heatmap = .ok items ∧ polygons items = s.tiles n sample := by
  rw [heatmap, if_pos hfills, hcells, ok_bind, sampling_eq hn hsample, ok_bind]
  dsimp only
  cases hvalues : (table n sample).flatMap (·.filterMap id) with
  | nil => exact ⟨[], rfl, (tiles_of_no_values hvalues).symm⟩
  | cons value values =>
    dsimp only [Scalar.smallest?, Scalar.largest?]
    obtain ⟨items, hitems, hpolygons⟩ := heatmapTiles_polygons hpalette hn _ _ sample
    rw [hitems, ok_bind]
    refine ⟨_, rfl, ?_⟩
    rw [polygons, List.filterMap_append]
    exact (congrArg₂ (· ++ ·) hpolygons (polygons_colourBar _ _ _ _ _)).trans (List.append_nil _)

/-- A heatmap of a request that has one, with `n` rows and columns of cells. -/
structure ShowsHeatmap (s : PlaneScene α) (n : ℕ) : Prop where
  evaluates : Evaluates s.request s.samples
  fillsPlane : s.fillsPlane = true
  view : PlaneView.Open s.view
  width : 0 < s.canvas.width
  height : 0 < s.canvas.height
  palette : s.palette.Sound
  cells : s.detail.heatmapGrid = .ok (n : ℤ)
  pos : 0 < n

/-- The tiles are those of the cells where the sample is a number; but for the pixel by which they overlap, they
divide the canvas; and the sample of a cell is that of the point in its middle. -/
theorem heatmap_tiles_match_samples (h : s.ShowsHeatmap n) : ∃ sample : ℕ → ℕ → Option α,
    Sampling.heatmap s.shownScalar s.view n = .ok (table n sample) ∧
    (∀ i < n, ∀ j < n, s.shownScalar (s.sampledPoint n i j) = .ok (sample i j) ∧
      s.pixel (s.sampledPoint n i j).x (s.sampledPoint n i j).y = .ok
        ⟨((s.cell n i j).left + (s.cell n i j).right) / 2, ((s.cell n i j).top + (s.cell n i j).bottom) / 2⟩) ∧
    (∃ items, s.heatmap = .ok items ∧
      polygons items = (List.range n).flatMap fun i => (List.range n).flatMap fun j =>
        if (sample i j).isSome then
          [[⟨(s.cell n i j).left, (s.cell n i j).top⟩, ⟨(s.cell n i j).right + 1, (s.cell n i j).top⟩,
            ⟨(s.cell n i j).right + 1, (s.cell n i j).bottom + 1⟩, ⟨(s.cell n i j).left, (s.cell n i j).bottom + 1⟩]]
        else []) ∧
    ∀ p, s.canvas.rect.Owns p ↔ ∃! c : ℕ × ℕ, (c.1 < n ∧ c.2 < n) ∧ (s.cell n c.1 c.2).Owns p := by
  choose value hvalue using shownScalar_returns h.evaluates
  have hsample : ∀ i < n, ∀ j < n, s.shownScalar (s.sampledPoint n i j) = .ok (value (s.sampledPoint n i j)) :=
    fun i _ j _ => hvalue (s.sampledPoint n i j)
  obtain ⟨items, hitems, hpolygons⟩ := heatmap_polygons h.palette h.fillsPlane h.pos h.cells hsample
  refine ⟨fun i j => value (s.sampledPoint n i j), sampling_eq h.pos hsample, fun i hi j hj =>
    ⟨hsample i hi j hj, pixel_sampledPoint h.view h.pos i j⟩, ⟨items, hitems, ?_⟩, cells_tile h.pos h.width h.height⟩
  simp only [hpolygons, tiles, tile_eq]

/-- The saddle in a window whose abscissae run to the left, in four cells. -/
def mirroredSaddle : PlaneScene ℚ :=
  ⟨saddle, saddle.samples, ⟨3, -5, -1, 2⟩, Palette.ofTable Settings.appearanceDefaults,
    { Detail.ofTable (Settings.samplingDefaults : Settings.Table ℚ) with heatmapGrid := .ok 2 },
    Canvas.ofSize 640 480⟩

theorem heatmap_tiles_match_samples_mirrored : ∃ sample items,
    Sampling.heatmap mirroredSaddle.shownScalar mirroredSaddle.view 2 = .ok (table 2 sample) ∧
      mirroredSaddle.heatmap = .ok items := by
  have h : mirroredSaddle.ShowsHeatmap 2 := {
    evaluates := saddle_evaluates
    fillsPlane := by decide
    view := ⟨by decide +kernel, by decide +kernel⟩
    width := Scalar.larger_pos (Scalar.literal_pos 1 (by decide)) 640
    height := Scalar.larger_pos (Scalar.literal_pos 1 (by decide)) 480
    palette := Palette.default_sound
    cells := rfl
    pos := Nat.two_pos }
  obtain ⟨sample, hsample, -, ⟨items, hitems, -⟩, -⟩ := heatmap_tiles_match_samples h
  exact ⟨sample, items, hsample, hitems⟩

end

end PlaneScene

end Scene

end FieldPlot
