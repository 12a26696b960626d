import FieldPlot.Proofs.Geometry.Rotation
import FieldPlot.Proofs.Sampling.Surfaces
import FieldPlot.Proofs.Sampling.Totality
import FieldPlot.Proofs.Scalar.Real
import FieldPlot.Scene.Quad

/-! The cells of a sampled surface are all seen. The view scales every range to 200 units, so that no vertex is
farther from the origin than the corner of a cube, however the surface is turned. An eye that is farther away has
all of it on one side. -/

namespace FieldPlot

open Sampling (Extent Grid Sampled)
open View (SpaceView)

variable {α : Type}

/-! ### Scene units -/

structure Sampling.Extent.Positive [ExactScalar α] (extent : Extent α) : Prop where
  x : 0 < extent.x
  y : 0 < extent.y
  z : 0 < extent.z

/-- Scene units for each model unit. -/
def View.SpaceView.scale [ExactScalar α] (v : SpaceView α) : Point α :=
  ⟨200 / v.rangeX, 200 / v.rangeY, 200 / v.rangeZ⟩

theorem View.SpaceView.scales_eq [ExactScalar α] {v : SpaceView α} (h : v.extent.Positive) :
    v.scales = .ok v.scale := by
  have hlength : @OfScientific.ofScientific α Scalar.toOfScientific 2000 true 1 = 200 := by
    rw [ExactScalar.scientific_eq]
    norm_num
  have hx : v.rangeX ≠ 0 := h.x.ne'
  have hy : v.rangeY ≠ 0 := h.y.ne'
  have hz : v.rangeZ ≠ 0 := h.z.ne'
  rw [scales, hlength, Scalar.divide_of_ne_zero hx, Scalar.divide_of_ne_zero hy, Scalar.divide_of_ne_zero hz]
  rfl

namespace Scene

variable [LawfulScalar α]

/-- A vertex of a surface in scene units. -/
def scenePoint (g : Grid α) (v : SpaceView α) (i j : ℕ) : Point α :=
  ⟨g.x i * v.scale.x, g.y j * v.scale.y, (g.vertex i j).height * v.scale.z⟩

/-- The same vertex after the rotation. -/
def turnedVertex (g : Grid α) (v : SpaceView α) (i j : ℕ) : Point α :=
  (scenePoint g v i j).turned v.rotationX v.rotationZ

/-- The corners of a cell in the order in which they are drawn. -/
def cellCorners (i j : ℕ) : List (ℕ × ℕ) :=
  [(i, j), (i + 1, j), (i + 1, j + 1), (i, j + 1)]

def cornerMean (f : ℕ → ℕ → α) (i j : ℕ) : α :=
  ((cellCorners i j).map fun p => f p.1 p.2).sum / 4

/-- A cell all of whose corners have an image. -/
def cellAt (g : Grid α) (v : SpaceView α) (width height : α) (i j : ℕ) : Quad α where
  corners := (cellCorners i j).map fun p => (v.lens width height).image (turnedVertex g v p.1 p.2)
  depth := cornerMean (fun i j => (turnedVertex g v i j).y) i j
  value := cornerMean (fun i j => (g.vertex i j).value) i j

theorem cornerMean_eq (f : ℕ → ℕ → α) (i j : ℕ) :
    (f i j + f (i + 1) j + f (i + 1) (j + 1) + f i (j + 1)) /
      @OfScientific.ofScientific α Scalar.toOfScientific 40 true 1 = cornerMean f i j := by
  have hfour : @OfScientific.ofScientific α Scalar.toOfScientific 40 true 1 = 4 := by
    rw [ExactScalar.scientific_eq]
    norm_num
  rw [hfour, cornerMean]
  simp only [cellCorners, List.map_cons, List.map_nil, List.sum_cons, List.sum_nil]
  ring

theorem abs_cornerMean_lt {f : ℕ → ℕ → α} {m : α} (h : ∀ i j, |f i j| < m) (i j : ℕ) : |cornerMean f i j| < m := by
  have h₀ := abs_lt.mp (h i j)
  have h₁ := abs_lt.mp (h (i + 1) j)
  have h₂ := abs_lt.mp (h (i + 1) (j + 1))
  have h₃ := abs_lt.mp (h i (j + 1))
  simp only [cornerMean, cellCorners, List.map_cons, List.map_nil, List.sum_cons, List.sum_nil, abs_lt]
  constructor <;> linarith

variable {g : Grid α} {v : SpaceView α} {width height : α} {n i j : ℕ}

/-! ### Cells -/

theorem image?_eq {q : Point α} (hseen : v.focalLength + q.y ≠ 0) :
    (v.lens width height).image? q = some ((v.lens width height).image q) := by
  have hbeq : ¬(v.focalLength + q.y == @OfScientific.ofScientific α Scalar.toOfScientific 0 true 1) = true :=
    mt Scalar.beq_zero_iff.mp hseen
  have hfinite : ((v.lens width height).image q).isFinite = true := by
    rw [Pixel.isFinite, LawfulScalar.isFinite_eq, LawfulScalar.isFinite_eq, Bool.and_self]
  exact (if_neg hbeq).trans (if_pos hfinite)

/-- A vertex where it is drawn. -/
def placedVertex (g : Grid α) (v : SpaceView α) (width height : α) (i j : ℕ) : Placed α :=
  ⟨turnedVertex g v i j, some ((v.lens width height).image (turnedVertex g v i j))⟩

theorem place_scenePoint (hseen : v.focalLength + (turnedVertex g v i j).y ≠ 0) :
    place v width height (scenePoint g v i j) = .ok (placedVertex g v width height i j) := by
  rw [place, Point.rotated_eq, ok_bind, ← turnedVertex, image?_eq hseen]
  rfl

theorem ofCorners?_eq (i j : ℕ) :
    Quad.ofCorners? (placedVertex g v width height i j) (placedVertex g v width height (i + 1) j)
        (placedVertex g v width height (i + 1) (j + 1)) (placedVertex g v width height i (j + 1))
        ((g.vertex i j).value + (g.vertex (i + 1) j).value + (g.vertex (i + 1) (j + 1)).value +
          (g.vertex i (j + 1)).value) =
      some (cellAt g v width height i j) := by
  rw [cellAt, ← cornerMean_eq, ← cornerMean_eq]
  rfl

/-- The vertices of `n` cells in each direction, column by column. -/
def placedVertices (g : Grid α) (v : SpaceView α) (width height : α) (n : ℕ) : List (Array (Placed α)) :=
  (List.range (n + 1)).map fun i => ((List.range (n + 1)).map (placedVertex g v width height i)).toArray

theorem placedVertices_get? (g : Grid α) (v : SpaceView α) (width height : α) (hi : i ≤ n) (hj : j ≤ n) :
    ((placedVertices g v width height n).toArray[i]?.bind fun row => row[j]?) =
      some (placedVertex g v width height i j) := by
  simp [placedVertices, Nat.lt_succ_of_le hi, Nat.lt_succ_of_le hj]

theorem quads_eq (hv : v.extent.Positive) (hcells : g.cells = n)
    (hseen : ∀ i j, v.focalLength + (turnedVertex g v i j).y ≠ 0) :
    quads g v width height =
      .ok ((List.range n).flatMap fun i => (List.range n).map (cellAt g v width height i)) := by
  have hrow (i : ℕ) : ((List.range (n + 1)).mapM fun j => place v width height (scenePoint g v i j)) =
      .ok ((List.range (n + 1)).map (placedVertex g v width height i)) :=
    mapM_eq_map _ fun j _ => place_scenePoint (hseen i j)
  have hcount : (g.cells + 1).toNat = n + 1 := by omega
  have hcells : g.cells.toNat = n := by omega
  unfold quads
  rw [View.SpaceView.scales_eq hv, ok_bind]
  dsimp only
  rw [hcount, hcells, mapM_eq_map fun i => ((List.range (n + 1)).map (placedVertex g v width height i)).toArray]
  · refine congrArg Except.ok (List.flatMap_congr fun i hi => ?_)
    refine List.filterMap_eq_map_iff_forall_eq_some.mpr fun j hj => ?_
    have hi : i < n := List.mem_range.mp hi
    have hj : j < n := List.mem_range.mp hj
    have h₀ := placedVertices_get? g v width height hi.le hj.le
    have h₁ := placedVertices_get? g v width height hi hj.le
    have h₂ := placedVertices_get? g v width height hi hj
    have h₃ := placedVertices_get? g v width height hi.le hj
    rw [← placedVertices]
    simp only [Option.bind_eq_bind]
    rw [h₀, h₁, h₂, h₃]
    exact ofCorners?_eq i j
  · intro i _
    exact (congrArg (· >>= _) (hrow i)).trans rfl

/-! ### Distances -/

theorem abs_mul_scale_le {a range : α} (hrange : 0 < range) (ha : |a| ≤ range) : |a * (200 / range)| ≤ 200 := by
  rw [abs_mul, abs_of_pos (by positivity : (0 : α) < 200 / range), ← mul_div_assoc, div_le_iff₀ hrange, mul_comm]
  exact mul_le_mul_of_nonneg_left ha (by norm_num)

theorem scenePoint_normSq_le (hv : v.extent.Positive) (h : Sampled v.extent n g) (i j : ℕ) :
    (scenePoint g v i j).normSq ≤ 120000 := by
  have hx : |(scenePoint g v i j).x| ≤ 200 := abs_mul_scale_le hv.x (h.abs_x_le hv.x.le i)
  have hy : |(scenePoint g v i j).y| ≤ 200 := abs_mul_scale_le hv.y (h.abs_y_le hv.y.le j)
  have hz : |(scenePoint g v i j).z| ≤ 200 := abs_mul_scale_le hv.z (h.abs_height_le hv.z.le i j)
  rw [Point.normSq]
  linarith [sq_le_sq' (abs_le.mp hx).1 (abs_le.mp hx).2, sq_le_sq' (abs_le.mp hy).1 (abs_le.mp hy).2,
    sq_le_sq' (abs_le.mp hz).1 (abs_le.mp hz).2]

/-- No vertex is as far into the screen, or out of it, as the eye is away. -/
theorem abs_turnedVertex_y_lt (hangle : ∀ a : α, Scalar.cos a ^ 2 + Scalar.sin a ^ 2 = 1) (hv : v.extent.Positive)
    (hfocal : 120000 < v.focalLength ^ 2) (h : Sampled v.extent n g) (i j : ℕ) :
    |(turnedVertex g v i j).y| < |v.focalLength| :=
  sq_lt_sq.mp (((Point.sq_turned_y_le hangle).trans (scenePoint_normSq_le hv h i j)).trans_lt hfocal)

/-- What is seen of a surface with `n` cells in each direction. The eye has all of it ahead, or all of it behind
where the focal length is negative, and no cell turns over. -/
structure AllSeen (g : Grid α) (v : SpaceView α) (width height : α) (n : ℕ) (cells : List (Quad α)) : Prop where
  row_major : cells = (List.range n).flatMap fun i => (List.range n).map (cellAt g v width height i)
  count : cells.length = n * n
  ahead : 0 < v.focalLength → ∀ i ≤ n, ∀ j ≤ n, 0 < v.focalLength + (turnedVertex g v i j).y
  behind : v.focalLength < 0 → ∀ i ≤ n, ∀ j ≤ n, v.focalLength + (turnedVertex g v i j).y < 0
  upright : ∀ i ≤ n, ∀ j ≤ n, 0 < v.focalLength / (v.focalLength + (turnedVertex g v i j).y)
  depth_lt : ∀ cell ∈ cells, |cell.depth| < |v.focalLength|

theorem quads_allSeen (hangle : ∀ a : α, Scalar.cos a ^ 2 + Scalar.sin a ^ 2 = 1) (hv : v.extent.Positive)
    (hfocal : 120000 < v.focalLength ^ 2) (h : Sampled v.extent n g) (width height : α) :
    ∃ cells, quads g v width height = .ok cells ∧ AllSeen g v width height n cells := by
  have hlt := abs_turnedVertex_y_lt hangle hv hfocal h
  have hahead (hpos : 0 < v.focalLength) (i j : ℕ) : 0 < v.focalLength + (turnedVertex g v i j).y := by
    have hy := (abs_lt.mp (hlt i j)).1
    rw [abs_of_pos hpos] at hy
    linarith
  have hbehind (hneg : v.focalLength < 0) (i j : ℕ) : v.focalLength + (turnedVertex g v i j).y < 0 := by
    have hy := (abs_lt.mp (hlt i j)).2
    rw [abs_of_neg hneg] at hy
    linarith
  have hupright (i j : ℕ) : 0 < v.focalLength / (v.focalLength + (turnedVertex g v i j).y) := by
    have hne : v.focalLength ≠ 0 := by
      rintro hzero
      norm_num [hzero] at hfocal
    rcases hne.lt_or_gt with hneg | hpos
    · exact div_pos_of_neg_of_neg hneg (hbehind hneg i j)
    · exact div_pos hpos (hahead hpos i j)
  have hseen (i j : ℕ) : v.focalLength + (turnedVertex g v i j).y ≠ 0 := fun hzero => by
    have hpos := hupright i j
    rw [hzero, div_zero] at hpos
    exact hpos.false
  refine ⟨_, quads_eq hv h.cells_eq hseen, rfl, ?_, fun hpos i _ j _ => hahead hpos i j,
    fun hneg i _ j _ => hbehind hneg i j, fun i _ j _ => hupright i j, fun cell hcell => ?_⟩
  · simp [List.length_flatMap]
  · obtain ⟨i, -, hcell⟩ := List.mem_flatMap.mp hcell
    obtain ⟨j, -, rfl⟩ := List.mem_map.mp hcell
    exact abs_cornerMean_lt hlt i j

/-! ### Real numbers -/

/-- Whatever function or scalar of a field is shown, and however the view is turned and shifted, no cell of the
surface is lost. -/
theorem surface_cells_seen {v : SpaceView ℝ} {g : Grid ℝ} {n : ℕ} (hv : v.extent.Positive)
    (hfocal : 120000 < v.focalLength ^ 2) (h : Sampled v.extent n g) (width height : ℝ) :
    ∃ cells, quads g v width height = .ok cells ∧ AllSeen g v width height n cells :=
  quads_allSeen Real.cos_sq_add_sin_sq hv hfocal h width height

theorem initial_extent_positive : (View.SpaceView.initial : SpaceView α).extent.Positive :=
  ⟨Scalar.literal_pos 1 (by decide), Scalar.literal_pos 1 (by decide), Scalar.literal_pos 1 (by decide)⟩

/-- The paraboloid as it is first shown. -/
theorem surface_cells_seen_initial :
    let v : SpaceView ℝ := View.SpaceView.initial
    ∃ g, Sampling.surface (fun p => .ok (some (p.x ^ 2 + p.y ^ 2))) v.extent 40 = .ok g ∧ v.extent.Positive ∧
      120000 < v.focalLength ^ 2 ∧ Sampled v.extent 40 g ∧
      ∃ cells, quads g v 800 600 = .ok cells ∧ AllSeen g v 800 600 40 cells := by
  intro v
  have hcells : (0 : ℤ) ≤ 40 := by decide
  obtain ⟨g, hg⟩ := Sampling.surface_returns (α := ℝ) (f := fun p => .ok (some (p.x ^ 2 + p.y ^ 2)))
    (fun _ => .ok _) v.extent hcells
  have hv : v.extent.Positive := initial_extent_positive
  have hfocal : 120000 < v.focalLength ^ 2 := by
    norm_num [v, View.SpaceView.initial]
  have hsampled : Sampled v.extent (40 : ℕ) g := .function _ hg
  exact ⟨g, hg, hv, hfocal, hsampled, surface_cells_seen hv hfocal hsampled 800 600⟩

/-- A focal length below zero is as large as any, yet no vertex of the flat surface is ahead of the eye. -/
theorem surface_cells_behind_eye :
    let v : SpaceView ℝ := { View.SpaceView.initial with focalLength := -500, rotationX := 0, rotationZ := 0 }
    ∃ g, Sampling.surface (fun _ => .ok (some 0)) v.extent 1 = .ok g ∧ v.extent.Positive ∧
      120000 < v.focalLength ^ 2 ∧ ∀ i ≤ 1, ∀ j ≤ 1, ¬0 < v.focalLength + (turnedVertex g v i j).y := by
  intro v
  have hcells : (0 : ℤ) ≤ 1 := by decide
  obtain ⟨g, hg⟩ := Sampling.surface_returns (α := ℝ) (f := fun _ => .ok (some 0)) (fun _ => .ok _) v.extent
    hcells
  have hv : v.extent.Positive := initial_extent_positive
  have hfocal : 120000 < v.focalLength ^ 2 := by
    norm_num [v]
  refine ⟨g, hg, hv, hfocal, fun i _ j _ hahead => ?_⟩
  have hsampled : Sampled v.extent (1 : ℕ) g := .function _ hg
  have hlt := (abs_lt.mp (abs_turnedVertex_y_lt Real.cos_sq_add_sin_sq hv hfocal hsampled i j)).2
  have hfar : |v.focalLength| = 500 := by
    norm_num [v]
  have hfocal : v.focalLength = -500 := rfl
  linarith

end Scene

end FieldPlot
