import FieldPlot.Proofs.Geometry.Rotation
import FieldPlot.Proofs.Sampling.UniformSites
import FieldPlot.Proofs.Scene.Layers

/-! The distances that a machine sorts a scene by. A point that is seen is far from the largest number, and so is its
distance. Of the dots of a field all are like that or none is seen, and so it is with arrows. A cell has four corners
that are seen. -/

namespace FieldPlot

open HasValue (value)
open Scalar (Within)

/-- Cosines and sines that are numbers are between -1 and 1. -/
structure Scalar.UnitTurns (α : Type) {K : Type} [Scalar α] [Field K] [LinearOrder K] [HasValue α K] : Prop where
  cos (angle : α) : isFinite (cos angle) = true → |value (cos angle)| ≤ 1
  sin (angle : α) : isFinite (sin angle) = true → |value (sin angle)| ≤ 1

variable {α K β : Type} [Scalar α] [Field K] [LinearOrder K] [IsStrictOrderedRing K] [HasValue α K]
  [RoundedScalar α K]

/-! ### Turned points -/

namespace Point

variable {elevation azimuth : α} {p : Point α}

/-- An angle whose cosine and sine are numbers. -/
structure Turns (angle : α) : Prop where
  cos : Scalar.isFinite (Scalar.cos angle) = true
  sin : Scalar.isFinite (Scalar.sin angle) = true

include K in
theorem finite_of_turned (h : Scalar.isFinite (p.turned elevation azimuth).x = true) :
    p.Finite ∧ Turns elevation ∧ Turns azimuth := by
  obtain ⟨hx, hy⟩ := RoundedScalar.isFinite_of_sub h
  obtain ⟨hx, hcos⟩ := RoundedScalar.isFinite_of_mul hx
  obtain ⟨hy, hsin⟩ := RoundedScalar.isFinite_of_mul hy
  obtain ⟨hy, hz⟩ := RoundedScalar.isFinite_of_sub hy
  obtain ⟨hy, hcos'⟩ := RoundedScalar.isFinite_of_mul hy
  obtain ⟨hz, hsin'⟩ := RoundedScalar.isFinite_of_mul hz
  exact ⟨⟨hx, hy, hz⟩, ⟨hcos', hsin'⟩, ⟨hcos, hsin⟩⟩

theorem Within.turned_y (h : p.Within 977) (hunit : Scalar.UnitTurns α) (helevation : Turns elevation)
    (hazimuth : Turns azimuth) : Scalar.Within (p.turned elevation azimuth).y 983 := by
  have hcos {angle : α} (h : Turns angle) : Scalar.Within (Scalar.cos angle) 0 :=
    ⟨h.cos, (hunit.cos angle h.cos).trans_eq (zpow_zero 2).symm⟩
  have hsin {angle : α} (h : Turns angle) : Scalar.Within (Scalar.sin angle) 0 :=
    ⟨h.sin, (hunit.sin angle h.sin).trans_eq (zpow_zero 2).symm⟩
  have hturnedX := (h.y.mul (hcos helevation) (by decide) (by decide)).sub
    (h.z.mul (hsin helevation) (by decide) (by decide)) (by decide) (by decide)
  have hx := (h.x.mul (hsin hazimuth) (by decide) (by decide)).mono (by decide : (977 + 0 + 1 : ℤ) ≤ 981)
  exact hx.add (hturnedX.mul (hcos hazimuth) (by decide) (by decide)) (by decide) (by decide)

end Point

namespace Scene

open Sampling (Arrow Grid Mesh Reading Spanned Uniform UniformPoints)
open View (SpaceView)

variable {v : SpaceView α} {width height : α} {p : Point α} {placed : Placed α}

theorem place_eq_ok (h : place v width height p = .ok placed) :
    placed = ⟨p.turned v.rotationX v.rotationZ, (v.lens width height).image? (p.turned v.rotationX v.rotationZ)⟩ := by
  obtain ⟨q, hq, h⟩ := bind_eq_ok.mp h
  obtain rfl := Point.eq_turned_of_rotated hq
  exact (pure_eq_ok.mp h).symm

include K in
theorem finite_of_image (h : place v width height p = .ok placed) (himage : placed.image ≠ none) :
    p.Finite ∧ Point.Turns v.rotationX ∧ Point.Turns v.rotationZ := by
  obtain rfl := place_eq_ok h
  dsimp only [Lens.image?] at himage
  split at himage
  · exact absurd rfl himage
  · split at himage
    · next hfinite =>
      -- The image of a point lies at a multiple of its first coordinate.
      obtain ⟨hx, -⟩ := Bool.and_eq_true_iff.mp hfinite
      have hx := (RoundedScalar.isFinite_of_add (RoundedScalar.isFinite_of_add hx).1).2
      exact Point.finite_of_turned (RoundedScalar.isFinite_of_mul hx).1
    · exact absurd rfl himage

/-- Points that are uniform in scene units are comparable once they are placed. -/
theorem comparable_of_uniform {f : β → Point α} {l : List β} {among : Placed α → Prop} (hunit : Scalar.UnitTurns α)
    (huniform : Scalar.isBounded α = true → UniformPoints f l)
    (hamong : ∀ p, among p → ∃ b ∈ l, place v width height (f b) = .ok p) : Comparable among := by
  have hunseen (h : ∀ b ∈ l, ¬((f b).Finite ∧ Point.Turns v.rotationX ∧ Point.Turns v.rotationZ)) :
      ∀ p, among p → p.image = none := by
    intro p hp
    obtain ⟨b, hb, hplace⟩ := hamong p hp
    exact not_not.mp fun himage => h b hb (finite_of_image hplace himage)
  by_cases hturns : Point.Turns v.rotationX ∧ Point.Turns v.rotationZ
  · cases hbounded : Scalar.isBounded α with
    | false =>
      exact .inl fun p _ => Scalar.isUndefined_of_finite (RoundedScalar.isFinite_of_unbounded p.point.y hbounded)
    | true =>
      rcases (huniform hbounded).all_or_none with hwithin | hnone
      · refine .inl fun p hp => ?_
        obtain ⟨b, hb, hplace⟩ := hamong p hp
        obtain rfl := place_eq_ok hplace
        exact Scalar.isUndefined_of_finite ((hwithin b hb).turned_y hunit hturns.1 hturns.2).finite
      · exact .inr (hunseen fun b hb h => hnone b hb h.1)
  · exact .inr (hunseen fun _ _ h => hturns h.2)

/-! ### Cells -/

/-- A corner of a cell that is seen. -/
def SeenCorner (g : Grid α) (v : SpaceView α) (width height : α) (a : Placed α) : Prop :=
  ∃ scale i j, v.scales = .ok scale ∧ a.image ≠ none ∧
    place v width height ⟨g.x i * scale.x, g.y j * scale.y, (g.vertex i j).height * scale.z⟩ = .ok a

theorem exists_corners {g : Grid α} {cells : List (Quad α)} {cell : Quad α} (h : quads g v width height = .ok cells)
    (hcell : cell ∈ cells) : ∃ a b c d, (∀ p ∈ [a, b, c, d], SeenCorner g v width height p) ∧
      cell.depth = (a.point.y + b.point.y + c.point.y + d.point.y) / 4.0 := by
  obtain ⟨scale, hscale, h⟩ := bind_eq_ok.mp h
  obtain ⟨columns, hcolumns, h⟩ := bind_eq_ok.mp h
  obtain rfl := pure_eq_ok.mp h
  have hcorner {i j : ℕ} {a : Placed α} (h : (do (← columns.toArray[i]?)[j]? : Option (Placed α)) = some a)
      (himage : a.image ≠ none) : SeenCorner g v width height a := by
    obtain ⟨row, hrow, ha⟩ := Option.bind_eq_some_iff.mp h
    obtain ⟨i, -, hrow⟩ := exists_of_mem_right (mapM_eq_ok.mp hcolumns)
      (List.mem_of_getElem? (List.getElem?_toArray ▸ hrow))
    obtain ⟨row, hplaced, hrow⟩ := bind_eq_ok.mp hrow
    obtain rfl := pure_eq_ok.mp hrow
    obtain ⟨j, -, hplace⟩ := exists_of_mem_right (mapM_eq_ok.mp hplaced)
      (List.mem_of_getElem? (List.getElem?_toArray ▸ ha))
    exact ⟨scale, i, j, hscale, himage, hplace⟩
  obtain ⟨i, -, hcell⟩ := List.mem_flatMap.mp hcell
  obtain ⟨j, -, hcell⟩ := List.mem_filterMap.mp hcell
  obtain ⟨a, ha, hcell⟩ := Option.bind_eq_some_iff.mp hcell
  obtain ⟨b, hb, hcell⟩ := Option.bind_eq_some_iff.mp hcell
  obtain ⟨c, hc, hcell⟩ := Option.bind_eq_some_iff.mp hcell
  obtain ⟨d, hd, hcell⟩ := Option.bind_eq_some_iff.mp hcell
  obtain ⟨_, ha', hcell⟩ := Option.bind_eq_some_iff.mp hcell
  obtain ⟨_, hb', hcell⟩ := Option.bind_eq_some_iff.mp hcell
  obtain ⟨_, hc', hcell⟩ := Option.bind_eq_some_iff.mp hcell
  obtain ⟨_, hd', hcell⟩ := Option.bind_eq_some_iff.mp hcell
  obtain rfl := Option.some.inj hcell
  refine ⟨a, b, c, d, ?_, rfl⟩
  simp only [List.forall_mem_cons, List.not_mem_nil, false_imp_iff, implies_true, and_true]
  exact ⟨hcorner ha (ha' ▸ Option.some_ne_none _), hcorner hb (hb' ▸ Option.some_ne_none _),
    hcorner hc (hc' ▸ Option.some_ne_none _), hcorner hd (hd' ▸ Option.some_ne_none _)⟩

theorem scales_eq_ok {scale : Point α} (h : v.scales = .ok scale) :
    ((v.rangeX == 0.0) = false ∧ (v.rangeY == 0.0) = false ∧ (v.rangeZ == 0.0) = false) ∧
      ∀ p : Point α, ⟨p.x * scale.x, p.y * scale.y, p.z * scale.z⟩ = v.extent.scene p := by
  obtain ⟨x, hx, h⟩ := bind_eq_ok.mp h
  obtain ⟨y, hy, h⟩ := bind_eq_ok.mp h
  obtain ⟨z, hz, h⟩ := bind_eq_ok.mp h
  obtain rfl := pure_eq_ok.mp h
  obtain ⟨hnex, rfl⟩ := Scalar.divide_eq_ok.mp hx
  obtain ⟨hney, rfl⟩ := Scalar.divide_eq_ok.mp hy
  obtain ⟨hnez, rfl⟩ := Scalar.divide_eq_ok.mp hz
  exact ⟨⟨hnex, hney, hnez⟩, fun _ => rfl⟩

/-- The mean distance of corners that are seen is a number. -/
theorem depth_defined {g : Grid α} {cells : List (Quad α)} {cell : Quad α} {n : ℤ} (hunit : Scalar.UnitTurns α)
    (hextent : v.extent.Spanned) (hmesh : Mesh v.extent n g) (h : quads g v width height = .ok cells)
    (hcell : cell ∈ cells) : Scalar.isUndefined cell.depth = false := by
  cases hbounded : Scalar.isBounded α with
  | false => exact Scalar.isUndefined_of_finite (RoundedScalar.isFinite_of_unbounded _ hbounded)
  | true =>
    have hseen {a : Placed α} (h : SeenCorner g v width height a) : Within a.point.y 983 := by
      obtain ⟨scale, i, j, hscale, himage, hplace⟩ := h
      rw [(scales_eq_ok hscale).2 ⟨g.x i, g.y j, (g.vertex i j).height⟩] at hplace
      obtain ⟨hfinite, helevation, hazimuth⟩ := finite_of_image hplace himage
      obtain rfl := place_eq_ok hplace
      exact (hmesh.corner_within hbounded hextent hfinite).turned_y hunit helevation hazimuth
    obtain ⟨a, b, c, d, hcorners, hdepth⟩ := exists_corners h hcell
    simp only [List.forall_mem_cons] at hcorners
    obtain ⟨ha, hb, hc, hd, -⟩ := hcorners
    have hab := (hseen ha).add (hseen hb) (by decide) (by decide)
    have habc := hab.add ((hseen hc).mono (by decide)) (by decide) (by decide)
    have habcd := habc.add ((hseen hd).mono (by decide)) (by decide) (by decide)
    exact hdepth ▸ Scalar.isUndefined_of_finite (habcd.div_four (by decide) (by decide)).finite

namespace SpaceScene

variable {s : SpaceScene α} {items : List (Item α)}

/-! ### Dots and arrows -/

theorem placeModel_eq_ok (h : s.placeModel p = .ok placed) : s.place (s.view.extent.scene p) = .ok placed := by
  obtain ⟨scale, hscale, h⟩ := bind_eq_ok.mp h
  rwa [(scales_eq_ok hscale).2 p] at h

include K in
/-- A frame with its axes shows that the ranges are spanned. -/
theorem spanned_of_axes (h : s.axes = .ok items) : s.view.extent.Spanned := by
  obtain ⟨scale, hscale, h⟩ := bind_eq_ok.mp h
  obtain ⟨⟨hx, hy, hz⟩, -⟩ := scales_eq_ok hscale
  obtain ⟨origin, -, h⟩ := bind_eq_ok.mp h
  obtain ⟨parts, hparts, -⟩ := flatMapM_eq_ok.mp h
  have hspan {axis : Vectors.Axis} {part : List (Item α)} (h : s.axis scale origin.image axis = .ok part) :
      Scalar.isFinite (s.axisExtent axis) = true →
        Scalar.isFinite (s.axisExtent axis - -s.axisExtent axis) = true := by
    obtain ⟨_, -, h⟩ := bind_eq_ok.mp h
    obtain ⟨_, -, h⟩ := bind_eq_ok.mp h
    obtain ⟨_, -, h⟩ := bind_eq_ok.mp h
    obtain ⟨_, -, h⟩ := bind_eq_ok.mp h
    obtain ⟨_, -, h⟩ := bind_eq_ok.mp h
    obtain ⟨_, -, h⟩ := bind_eq_ok.mp h
    obtain ⟨spacing, hspacing, h⟩ := bind_eq_ok.mp h
    obtain ⟨ticks, hticks, -⟩ := bind_eq_ok.mp h
    exact Sampling.span_of_steps hspacing hticks
  rcases hparts with _ | ⟨haxisX, _ | ⟨haxisY, _ | ⟨haxisZ, _⟩⟩⟩
  exact ⟨⟨hx, hspan haxisX⟩, ⟨hy, hspan haxisY⟩, ⟨hz, hspan haxisZ⟩⟩

theorem dots_comparable (hunit : Scalar.UnitTurns α) (hextent : s.view.extent.Spanned)
    {readings : List (Reading α)} (h : s.dotReadings = .ok readings) :
    Comparable fun p => ∃ r ∈ readings, s.placeModel r.position = .ok p := by
  refine comparable_of_uniform (f := fun r : Reading α => s.view.extent.scene r.position) (l := readings) hunit
    (fun hbounded => ?_) fun p ⟨r, hr, hp⟩ => ⟨r, hr, placeModel_eq_ok hp⟩
  unfold dotReadings at h
  split at h
  · obtain ⟨cells, -, h⟩ := bind_eq_ok.mp h
    exact Sampling.fieldMagnitudes_uniform hbounded hextent h
  · obtain ⟨cells, -, h⟩ := bind_eq_ok.mp h
    exact Sampling.scalarField_uniform hbounded hextent h

/-- The heights of arrows on a surface, or where they were sampled. -/
theorem heights_uniform {found : List (Arrow α)} {r peak heightScale : α} {onSurface : Bool}
    (hbounded : Scalar.isBounded α = true) (hspanned : Spanned r)
    (hvalues : ∀ a ∈ found, Scalar.isFinite a.surfaceValue = true)
    (hpeak : (Scalar.largest? (found.map fun a => Scalar.abs a.surfaceValue)).getD 0.0 = peak)
    (hscale : (if onSurface && 0.0 < peak then Scalar.divide r peak else .ok 0.0) = .ok heightScale)
    (hstarts : Uniform (fun a : Arrow α => a.start.z * (200.0 / r)) found) :
    Uniform (fun a : Arrow α => (if onSurface then a.surfaceValue * heightScale else a.start.z) * (200.0 / r))
      found := by
  cases onSurface with
  | false => exact hstarts
  | true =>
    split at hscale
    · next hpos =>
      rw [Bool.true_and, decide_eq_true_iff] at hpos
      obtain ⟨-, rfl⟩ := Scalar.divide_eq_ok.mp hscale
      cases hlargest : Scalar.largest? (found.map fun a => Scalar.abs a.surfaceValue) with
      | none =>
        rw [hlargest] at hpeak
        subst hpeak
        exact absurd ((Scalar.lt_iff_value ValuedScalar.zero.1 ValuedScalar.zero.1).mp hpos) (lt_irrefl _)
      | some m =>
        obtain rfl : m = peak := by rwa [hlargest] at hpeak
        obtain ⟨hm, hle⟩ := Sampling.largest?_finite (fun b hb => by
          obtain ⟨a, ha, rfl⟩ := List.mem_map.mp hb
          exact (ValuedScalar.abs (hvalues a ha)).1) hlargest
        rw [Scalar.lt_iff_value ValuedScalar.zero.1 hm, (ValuedScalar.zero (α := α)).2] at hpos
        refine Sampling.scaled_uniform hbounded hspanned hm hpos fun a ha => ⟨hvalues a ha, ?_⟩
        rw [← (ValuedScalar.abs (hvalues a ha)).2]
        exact hle _ (List.mem_map_of_mem ha)
    · obtain rfl := Except.ok.inj hscale
      refine .of_zero fun a ha => ?_
      exact Sampling.value_mul_of_zero (hvalues a ha) ValuedScalar.zero.1
        (by rw [(ValuedScalar.zero (α := α)).2, mul_zero])

theorem arrows_uniform (hbounded : Scalar.isBounded α = true) (hextent : s.view.extent.Spanned)
    (hsamples : s.samples.Finite) {placed : List (PlacedArrow α)} (h : s.placedArrows = .ok placed) :
    UniformPoints (fun a : PlacedArrow α => a.start) placed := by
  obtain ⟨cells, -, h⟩ := bind_eq_ok.mp h
  obtain ⟨found, hfound, h⟩ := bind_eq_ok.mp h
  obtain ⟨sites, hsites, hstarts⟩ := Sampling.exists_sites_of_arrows hfound
  obtain ⟨peak, hpeak⟩ : ∃ peak, (Scalar.largest? (found.map fun a => Scalar.abs a.surfaceValue)).getD 0.0 = peak :=
    ⟨_, rfl⟩
  rw [hpeak] at h
  unfold placeArrows at h
  dsimp only at h
  generalize (decide (s.request.surfaceMode ≠ .none) && !s.request.spatial) = onSurface at h
  obtain ⟨heightScale, hscale, h⟩ := branch_eq_ok.mp h
  obtain ⟨scale, hunits, h⟩ := bind_eq_ok.mp h
  have hvalues (a : Arrow α) (ha : a ∈ found) : Scalar.isFinite a.surfaceValue = true := by
    obtain ⟨-, v, w, hv, hrestrict⟩ := hstarts a ha
    exact Sampling.isFinite_of_restrict? (hsamples.vector hv) hrestrict
  have huniform := (Sampling.fieldSites_uniform hbounded hextent hsites).of_mem (m := found)
    (g := fun a => s.view.extent.scene a.start) fun a ha => ⟨a.start, (hstarts a ha).1, rfl⟩
  have hheights := heights_uniform hbounded hextent.z hvalues hpeak hscale huniform.z
  have hlifted : UniformPoints (fun a : Arrow α => s.view.extent.scene
      ⟨a.start.x, a.start.y, if onSurface then a.surfaceValue * heightScale else a.start.z⟩) found :=
    ⟨huniform.x, huniform.y, hheights⟩
  refine hlifted.of_mem fun b hb => ?_
  obtain ⟨a, ha, hb⟩ := exists_of_mem_right (mapM_eq_ok.mp h) hb
  obtain ⟨-, hstart, -⟩ := placeArrow_eq_ok hb
  rw [hstart]
  exact ⟨a, ha, (scales_eq_ok hunits).2 ⟨_, _, if onSurface then a.surfaceValue * heightScale else a.start.z⟩⟩

theorem place_of_mem_placedArrows {arrows : List (PlacedArrow α)} {a : PlacedArrow α} (h : s.placedArrows = .ok arrows)
    (ha : a ∈ arrows) : s.place a.start = .ok a.placed := by
  obtain ⟨cells, -, h⟩ := bind_eq_ok.mp h
  obtain ⟨found, -, h⟩ := bind_eq_ok.mp h
  obtain ⟨heightScale, -, h⟩ := branch_eq_ok.mp h
  obtain ⟨scale, -, h⟩ := bind_eq_ok.mp h
  obtain ⟨b, -, ha⟩ := exists_of_mem_right (mapM_eq_ok.mp h) ha
  exact (placeArrow_eq_ok ha).2.2

theorem arrows_comparable (hunit : Scalar.UnitTurns α) (hextent : s.view.extent.Spanned) (hsamples : s.samples.Finite)
    {arrows : List (PlacedArrow α)} (h : s.placedArrows = .ok arrows) :
    Comparable fun p => ∃ a ∈ arrows, a.placed = p := by
  have hplace (p : Placed α) (hp : ∃ a ∈ arrows, a.placed = p) : ∃ a ∈ arrows, s.place a.start = .ok p := by
    obtain ⟨a, ha, rfl⟩ := hp
    exact ⟨a, ha, place_of_mem_placedArrows h ha⟩
  exact comparable_of_uniform hunit (fun hbounded => arrows_uniform hbounded hextent hsamples h) hplace

/-! ### The whole scene -/

theorem cells_defined (hunit : Scalar.UnitTurns α) (hextent : s.view.extent.Spanned) {cells : List (Quad α)}
    (h : s.shownCells = .ok cells) : ∀ c ∈ cells, Scalar.isUndefined c.depth = false := by
  unfold shownCells at h
  dsimp only at h
  split at h
  · split at h
    · obtain ⟨grid, hgrid, h⟩ := bind_eq_ok.mp h
      obtain ⟨n, -, hgrid⟩ := bind_eq_ok.mp hgrid
      exact fun c hc => depth_defined hunit hextent (Sampling.scaledSurface_mesh hgrid) h hc
    · obtain rfl := Except.ok.inj h
      exact fun _ hc => nomatch hc
  · split at h
    · obtain ⟨grid, hgrid, h⟩ := bind_eq_ok.mp h
      obtain ⟨n, -, hgrid⟩ := bind_eq_ok.mp hgrid
      exact fun c hc => depth_defined hunit hextent (Sampling.surface_mesh hgrid) h hc
    · obtain rfl := Except.ok.inj h
      exact fun _ hc => nomatch hc

/-- Beside axes that have been drawn, everything that is sorted has an order. -/
theorem depths_of_axes (hunit : Scalar.UnitTurns α) (hsamples : s.samples.Finite) (h : s.axes = .ok items) :
    s.Depths where
  cells := cells_defined hunit (spanned_of_axes h)
  dots := dots_comparable hunit (spanned_of_axes h)
  arrows := arrows_comparable hunit (spanned_of_axes h) hsamples

end SpaceScene

end Scene

end FieldPlot
