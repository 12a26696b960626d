import FieldPlot.Proofs.Sampling.Totality
import FieldPlot.Proofs.Scene.Layers
import FieldPlot.Proofs.Scene.SurfaceCells

/-! Arrows of a planar field beside the surface of it. An arrow and a vertex at the same position show the same
value; the arrow is as high as the vertex exactly if the largest value among the arrows is that of the surface. -/

namespace FieldPlot

open Sampling (Arrow Grid arrowAt? arrows fieldSites floorSites exists_of_mem_collect threshold_pos)
open Vectors (SurfaceMode Vec)
open View (SpaceView)

variable {α : Type} [LawfulScalar α] {mode : SurfaceMode}

/-! ### Values -/

theorem Vectors.Vec.component?_of_restrict? {v : Vec (Option α)} {w : Vec α} {magnitude value : α}
    (hmode : mode ≠ .none) (h : v.restrict? mode = some (w, magnitude, value)) :
    v.component? mode = some value ∧ (magnitude = |value| ∨ magnitude = value) := by
  have haxis {a : Option α} {f : α → Vec α} (h : (a.map fun a => (f a, Scalar.abs a, a)) = some (w, magnitude, value)) :
      a = some value ∧ (magnitude = |value| ∨ magnitude = value) := by
    obtain ⟨b, rfl, hb⟩ := Option.map_eq_some_iff.mp h
    simp only [Prod.mk.injEq, LawfulScalar.abs_eq] at hb
    obtain ⟨-, rfl, rfl⟩ := hb
    exact ⟨rfl, .inl rfl⟩
  cases mode with
  | none => exact absurd rfl hmode
  | x => exact haxis h
  | y => exact haxis h
  | z => exact haxis h
  | magnitude =>
    simp only [restrict?, Option.bind_eq_bind, Option.bind_eq_some_iff, Option.pure_def, Option.some.injEq,
      Prod.mk.injEq] at h
    obtain ⟨m, hm, x, -, y, -, z, -, -, rfl, rfl⟩ := h
    exact ⟨hm, .inr rfl⟩

namespace Sampling

theorem arrowAt_eq_some {p : Point α} {v : Vec (Option α)} {a : Arrow α} (hmode : mode ≠ .none)
    (h : arrowAt? mode p v = .ok (some a)) :
    a.start = p ∧ v.component? mode = some a.surfaceValue ∧ a.surfaceValue ≠ 0 := by
  unfold arrowAt? at h
  split at h
  · next w magnitude value hrestrict =>
    obtain ⟨hcomponent, hmagnitude⟩ := Vec.component?_of_restrict? hmode hrestrict
    split at h
    · cases h
    · next hle =>
      obtain ⟨_, -, h⟩ := bind_eq_ok.mp h
      cases pure_eq_ok.mp h
      refine ⟨rfl, hcomponent, ?_⟩
      have hpos : 0 < magnitude := threshold_pos.trans_le (not_lt.mp hle)
      rintro rfl
      rcases hmagnitude with rfl | rfl
      · exact hpos.ne' abs_zero
      · exact hpos.ne' rfl
  · cases h

/-- An arrow of a planar field is on the floor and has the value that the field has there. -/
theorem mem_arrows {f : Point α → Except Fault (Vec (Option α))} {extent : Extent α} {cells : ℤ}
    {found : List (Arrow α)} {a : Arrow α} (hmode : mode ≠ .none) (h : arrows f false mode extent cells = .ok found)
    (ha : a ∈ found) : a.start.z = 0 ∧ a.surfaceValue ≠ 0 ∧
      ∃ v, f a.start = .ok v ∧ v.component? mode = some a.surfaceValue := by
  obtain ⟨sites, hsites, h⟩ := bind_eq_ok.mp h
  obtain ⟨p, hp, h⟩ := exists_of_mem_collect h ha
  obtain ⟨v, hv, h⟩ := bind_eq_ok.mp h
  obtain ⟨rfl, hcomponent, hne⟩ := arrowAt_eq_some hmode h
  obtain ⟨xs, -, hsites⟩ := bind_eq_ok.mp hsites
  obtain ⟨ys, -, hsites⟩ := bind_eq_ok.mp hsites
  obtain rfl := pure_eq_ok.mp hsites
  obtain ⟨x, -, hp⟩ := List.mem_flatMap.mp hp
  obtain ⟨y, -, hp⟩ := List.mem_map.mp hp
  exact ⟨(congrArg Point.z hp).symm.trans Scalar.literal_zero, hne, v, hv, hcomponent⟩

/-- A vertex of the surface of a planar field has the value that the field has there. -/
theorem vectorSurface_vertex {f : Point α → Except Fault (Vec (Option α))} {extent : Extent α} {cells : ℤ}
    {g : Grid α} {p : Point α} {v : Vec (Option α)} {value : α} {i j : ℕ} (hz : 0 ≤ extent.z)
    (h : vectorSurface f mode extent cells = .ok g) (hi : i < g.xs.size) (hj : j < g.ys.size)
    (hp : p = ⟨g.x i, g.y j, @OfScientific.ofScientific α Scalar.toOfScientific 0 true 1⟩) (hv : f p = .ok v)
    (hvalue : v.component? mode = some value) :
    g.vertex i j = ⟨value, value * (extent.z / g.peak), true⟩ := by
  obtain ⟨sample, hsample, hvertex⟩ := (scaledSurface_eq_ok hz h).sampled i hi j hj
  rw [← hp, hv, ok_bind, hvalue] at hsample
  rw [hvertex, ← pure_eq_ok.mp hsample]
  rfl

end Sampling

namespace Scene.SpaceScene

variable {s : SpaceScene α} {g : Grid α} {placed : List (PlacedArrow α)} {a : PlacedArrow α} {i j : ℕ}

/-- The largest value that an arrow stands for. -/
def arrowPeak (placed : List (PlacedArrow α)) : α :=
  Sampling.peakOf (placed.map (·.arrow.surfaceValue))

theorem placeArrows_eq (hv : s.view.extent.Positive) (hmode : s.request.surfaceMode ≠ .none)
    (hplanar : s.request.spatial = false) {peak : α} (hpeak : 0 < peak) (arrows : List (Arrow α)) :
    s.placeArrows peak arrows = arrows.mapM (s.placeArrow s.view.scale true (s.view.rangeZ / peak)) := by
  have honSurface : (decide (s.request.surfaceMode ≠ .none) && !s.request.spatial) = true := by
    simp [hmode, hplanar]
  unfold placeArrows
  rw [honSurface, View.SpaceView.scales_eq hv, Scalar.literal_zero, decide_eq_true hpeak]
  dsimp only
  rw [Bool.and_self, if_pos rfl, Scalar.divide_of_ne_zero hpeak.ne', ok_bind, ok_bind]

/-- Arrows of a planar field are lifted by a scale of their own. -/
structure LiftedArrow (s : SpaceScene α) (placed : List (PlacedArrow α)) (a : PlacedArrow α) : Prop where
  start_eq : a.start = ⟨a.arrow.start.x * s.view.scale.x, a.arrow.start.y * s.view.scale.y,
    a.arrow.surfaceValue * (s.view.rangeZ / arrowPeak placed) * s.view.scale.z⟩
  floor : a.arrow.start.z = 0
  value_ne_zero : a.arrow.surfaceValue ≠ 0
  sampled : ∃ v, s.samples.vector a.arrow.start = .ok v ∧
    v.component? s.request.surfaceMode = some a.arrow.surfaceValue

theorem mem_placedArrows (hv : s.view.extent.Positive) (hmode : s.request.surfaceMode ≠ .none)
    (hplanar : s.request.spatial = false) (h : s.placedArrows = .ok placed) (ha : a ∈ placed) :
    LiftedArrow s placed a := by
  obtain ⟨cells, -, h⟩ := bind_eq_ok.mp h
  obtain ⟨arrows, harrows, h⟩ := bind_eq_ok.mp h
  rw [hplanar] at harrows
  obtain rfl := placeArrows_map h
  obtain ⟨hfloor, hne, hsampled⟩ := Sampling.mem_arrows hmode harrows (List.mem_map_of_mem ha)
  have hpos : 0 < arrowPeak placed :=
    (abs_pos.mpr hne).trans_le (Sampling.abs_le_peakOf (List.mem_map_of_mem ha))
  have hpeak : (Scalar.largest? ((placed.map (·.arrow)).map fun a => Scalar.abs a.surfaceValue)).getD
      (@OfScientific.ofScientific α Scalar.toOfScientific 0 true 1) = arrowPeak placed := by
    simp [arrowPeak, Sampling.peakOf, Function.comp_def]
  rw [hpeak, placeArrows_eq hv hmode hplanar hpos] at h
  obtain ⟨arrow, -, harrow⟩ := exists_of_mem_right (mapM_eq_ok.mp h) ha
  obtain ⟨rfl, hstart, -⟩ := placeArrow_eq_ok harrow
  exact ⟨hstart, hfloor, hne, hsampled⟩

/-- An arrow stands on the surface where the two have the same largest value, and not otherwise. -/
theorem arrow_on_surface_iff (hv : s.view.extent.Positive) (hmode : s.request.surfaceMode ≠ .none)
    (hplanar : s.request.spatial = false) (hg : s.vectorGrid = .ok g) (hplaced : s.placedArrows = .ok placed)
    (ha : a ∈ placed) (hi : i < g.xs.size) (hj : j < g.ys.size) (hx : a.arrow.start.x = g.x i)
    (hy : a.arrow.start.y = g.y j) : a.start = scenePoint g s.view i j ↔ arrowPeak placed = g.peak := by
  obtain ⟨hstart, hfloor, hne, v, hsample, hvalue⟩ := mem_placedArrows hv hmode hplanar hplaced ha
  obtain ⟨cells, -, hg⟩ := bind_eq_ok.mp hg
  have hsite : a.arrow.start = ⟨g.x i, g.y j, @OfScientific.ofScientific α Scalar.toOfScientific 0 true 1⟩ := by
    rw [Scalar.literal_zero, ← hx, ← hy, ← hfloor]
  have hvertex := Sampling.vectorSurface_vertex hv.z.le hg hi hj hsite hsample hvalue
  have hscene : scenePoint g s.view i j = ⟨a.arrow.start.x * s.view.scale.x, a.arrow.start.y * s.view.scale.y,
      a.arrow.surfaceValue * (s.view.rangeZ / g.peak) * s.view.scale.z⟩ := by
    rw [scenePoint, hvertex, hx, hy]
    rfl
  have hscale : s.view.scale.z ≠ 0 := (div_pos (by norm_num) hv.z).ne'
  have hrange : s.view.rangeZ ≠ 0 := hv.z.ne'
  rw [hstart, hscene, Point.mk.injEq, mul_left_inj' hscale, mul_right_inj' hne, div_eq_mul_inv, div_eq_mul_inv,
    mul_right_inj' hrange, inv_inj]
  exact ⟨fun h => h.2.2, fun h => ⟨rfl, rfl, h⟩⟩

/-! ### Ridges -/

/-- A field that is largest between the sites of its arrows. -/
def ridgesRequest : Request :=
  ⟨"(3-abs(abs(x)-2.5))*i".toList, some ⟨"(3-abs(abs(x)-2.5))".toList, none, none⟩, false, .function, .x, false,
    true, []⟩

/-- The ridges in the view that a plot starts with. -/
def ridges : SpaceScene ℚ where
  request := ridgesRequest
  samples := ridgesRequest.samples
  view := .initial
  palette := .ofTable Settings.appearanceDefaults
  detail := { Detail.ofTable (Settings.samplingDefaults : Settings.Table ℚ) with
    surfaceGrid := .ok 4
    spaceArrows := .ok 1 }
  canvas := .ofSize 800 600

theorem ridges_corner : ∃ g placed a, ridges.vectorGrid = .ok g ∧ ridges.placedArrows = .ok placed ∧ a ∈ placed ∧
    0 < g.xs.size ∧ 0 < g.ys.size ∧ a.arrow.start.x = g.x 0 ∧ a.arrow.start.y = g.y 0 ∧
    a.start = ⟨-200, -200, 200⟩ ∧ scenePoint g ridges.view 0 0 = ⟨-200, -200, 100 / 3⟩ := by
  have hgrid : (ridges.vectorGrid.toOption.map fun g =>
      (g.xs.size, g.ys.size, g.x 0, g.y 0, scenePoint g ridges.view 0 0)) =
        some (5, 5, -5, -5, ⟨-200, -200, 100 / 3⟩) := by
    decide +kernel
  have hplaced : (ridges.placedArrows.toOption.bind fun placed => placed.head?.map fun a =>
      (a.arrow.start.x, a.arrow.start.y, a.start)) = some (-5, -5, ⟨-200, -200, 200⟩) := by
    decide +kernel
  cases hg : ridges.vectorGrid with
  | error f => rw [hg] at hgrid; cases hgrid
  | ok g =>
    cases hp : ridges.placedArrows with
    | error f => rw [hp] at hplaced; cases hplaced
    | ok placed =>
      rw [hg] at hgrid
      rw [hp] at hplaced
      obtain ⟨a, ha, harrow⟩ := Option.map_eq_some_iff.mp hplaced
      obtain ⟨hxs, hys, hx, hy, hscene⟩ : g.xs.size = 5 ∧ g.ys.size = 5 ∧ g.x 0 = -5 ∧ g.y 0 = -5 ∧
          scenePoint g ridges.view 0 0 = ⟨-200, -200, 100 / 3⟩ := by
        simpa using Option.some.inj hgrid
      obtain ⟨hax, hay, hstart⟩ : a.arrow.start.x = -5 ∧ a.arrow.start.y = -5 ∧ a.start = ⟨-200, -200, 200⟩ := by
        simpa using harrow
      exact ⟨g, placed, a, rfl, rfl, List.mem_of_mem_head? ha, by omega, by omega, hax.trans hx.symm,
        hay.trans hy.symm, hstart, hscene⟩

theorem arrow_on_surface_iff_ridges : ∃ g placed a, ridges.view.extent.Positive ∧
    ridges.request.surfaceMode ≠ .none ∧ ridges.request.spatial = false ∧ ridges.vectorGrid = .ok g ∧
    ridges.placedArrows = .ok placed ∧ a ∈ placed ∧ 0 < g.xs.size ∧ 0 < g.ys.size ∧ a.arrow.start.x = g.x 0 ∧
    a.arrow.start.y = g.y 0 ∧ (a.start = scenePoint g ridges.view 0 0 ↔ arrowPeak placed = g.peak) := by
  obtain ⟨g, placed, a, hg, hplaced, ha, hi, hj, hx, hy, -, -⟩ := ridges_corner
  have hv : ridges.view.extent.Positive := initial_extent_positive
  have hmode : ridges.request.surfaceMode ≠ .none := by decide
  exact ⟨g, placed, a, hv, hmode, rfl, hg, hplaced, ha, hi, hj, hx, hy,
    arrow_on_surface_iff hv hmode rfl hg hplaced ha hi hj hx hy⟩

/-- In the corner the arrow is six times as high as the surface. -/
theorem arrow_above_surface : ∃ g placed a, ridges.vectorGrid = .ok g ∧ ridges.placedArrows = .ok placed ∧
    a ∈ placed ∧ 0 < g.xs.size ∧ 0 < g.ys.size ∧ a.arrow.start.x = g.x 0 ∧ a.arrow.start.y = g.y 0 ∧
    a.start ≠ scenePoint g ridges.view 0 0 := by
  obtain ⟨g, placed, a, hg, hplaced, ha, hi, hj, hx, hy, hstart, hscene⟩ := ridges_corner
  refine ⟨g, placed, a, hg, hplaced, ha, hi, hj, hx, hy, ?_⟩
  rw [hstart, hscene]
  decide +kernel

end Scene.SpaceScene

end FieldPlot
