import FieldPlot.Proofs.Sampling.Sites
import FieldPlot.Proofs.Scene.Faultless
import FieldPlot.Proofs.Scene.Layers

/-! The dots of a field in space. A dot is drawn where the image of its sample is on the canvas, and the eye is not
asked whether the sample is ahead of it: points behind the eye have images too, upside down, and the circles that are
drawn for them have a radius below zero. An eye that is far enough away has all samples ahead of it. -/

namespace FieldPlot

open Sampling (Extent Reading Within)
open View (SpaceView)

/-! ### How far samples lie out of the screen -/

namespace View.SpaceView

variable {α : Type} [LawfulScalar α] {v : SpaceView α}

/-- How far the corners of the turned scene reach out of the screen, in units of half a side of the scene. -/
def reach (v : SpaceView α) : α :=
  |Scalar.sin v.rotationZ| + |Scalar.cos v.rotationZ| * (|Scalar.cos v.rotationX| + |Scalar.sin v.rotationX|)

/-- A model point where it stands in the scene after the rotation. -/
def turned (v : SpaceView α) (p : Point α) : Point α :=
  (⟨p.x * v.scale.x, p.y * v.scale.y, p.z * v.scale.z⟩ : Point α).turned v.rotationX v.rotationZ

theorem abs_turned_y_le (hv : v.extent.Positive) {p : Point α} (hp : Within v.extent p) :
    |(v.turned p).y| ≤ 200 * v.reach := by
  have hx : |p.x * v.scale.x| ≤ 200 := Scene.abs_mul_scale_le hv.x hp.x
  have hy : |p.y * v.scale.y| ≤ 200 := Scene.abs_mul_scale_le hv.y hp.y
  have hz : |p.z * v.scale.z| ≤ 200 := Scene.abs_mul_scale_le hv.z hp.z
  calc |(v.turned p).y|
      ≤ |p.x * v.scale.x * Scalar.sin v.rotationZ| + |(p.y * v.scale.y * Scalar.cos v.rotationX -
          p.z * v.scale.z * Scalar.sin v.rotationX) * Scalar.cos v.rotationZ| := abs_add_le _ _
    _ ≤ |p.x * v.scale.x| * |Scalar.sin v.rotationZ| + (|p.y * v.scale.y| * |Scalar.cos v.rotationX| +
          |p.z * v.scale.z| * |Scalar.sin v.rotationX|) * |Scalar.cos v.rotationZ| := by
        rw [abs_mul, abs_mul (_ - _), ← abs_mul _ (Scalar.cos v.rotationX), ← abs_mul _ (Scalar.sin v.rotationX)]
        exact add_le_add_right (mul_le_mul_of_nonneg_right (abs_sub _ _) (abs_nonneg _)) _
    _ ≤ 200 * |Scalar.sin v.rotationZ| + (200 * |Scalar.cos v.rotationX| + 200 * |Scalar.sin v.rotationX|) *
          |Scalar.cos v.rotationZ| := by gcongr
    _ = 200 * v.reach := by
        rw [reach]
        ring

/-- No rotation brings a corner nearer to the eye than the diagonal of the scene is long. -/
theorem reach_sq_le (hangle : ∀ a : α, Scalar.cos a ^ 2 + Scalar.sin a ^ 2 = 1) (v : SpaceView α) :
    v.reach ^ 2 ≤ 3 := by
  have hz := hangle v.rotationZ
  have hx := hangle v.rotationX
  rw [← sq_abs, ← sq_abs (Scalar.sin _)] at hz hx
  -- The sum of a cosine and a sine has a square of at most 2.
  have hsum : (|Scalar.cos v.rotationX| + |Scalar.sin v.rotationX|) ^ 2 ≤ 2 := by
    linarith [sq_nonneg (|Scalar.cos v.rotationX| - |Scalar.sin v.rotationX|)]
  set t := |Scalar.cos v.rotationX| + |Scalar.sin v.rotationX|
  calc v.reach ^ 2
      = (|Scalar.cos v.rotationZ| ^ 2 + |Scalar.sin v.rotationZ| ^ 2) * (1 + t ^ 2) -
          (|Scalar.sin v.rotationZ| * t - |Scalar.cos v.rotationZ|) ^ 2 := by
        rw [reach]
        ring
    _ ≤ 3 := by
        rw [hz]
        linarith [sq_nonneg (|Scalar.sin v.rotationZ| * t - |Scalar.cos v.rotationZ|)]

end View.SpaceView

namespace Scene.SpaceScene

section

variable {α : Type} {m : Except Fault (List (Item α))} {item : Item α} {radius : α}

/-- Whether an item is a circle with a radius. -/
def HasRadius (item : Item α) (radius : α) : Prop :=
  ∃ centre fill, item.shape = .circle centre radius fill

theorem HasRadius.isCircle (h : HasRadius item radius) : item.shape.isCircle = true := by
  obtain ⟨centre, fill, hshape⟩ := h
  rw [hshape]
  rfl

/-- Items other than dots. -/
def Plain (item : Item α) : Prop :=
  item.shape.isCircle = false

def IsUndotted (role : Role) (_ : α) : Prop :=
  role ≠ .field

theorem Plain.of_drawn (h : Emits (Drawn (fun _ => True) IsUndotted) m) : Emits Plain m :=
  h.mono fun _ hitem => Bool.eq_false_iff.mpr fun hcircle => hitem.known (hitem.circle hcircle)

end

variable {α : Type} [LawfulScalar α] {s : SpaceScene α} {p : Point α} {items more : List (Item α)}
  {readings : List (Reading α)}

/-! ### One dot -/

/-- How far a model point is ahead of the eye. -/
def ahead (s : SpaceScene α) (p : Point α) : α :=
  s.view.focalLength + (s.view.turned p).y

def image? (s : SpaceScene α) (p : Point α) : Option (Pixel α) :=
  (s.view.lens s.canvas.width s.canvas.height).image? (s.view.turned p)

def OnCanvas (s : SpaceScene α) (p : Point α) : Prop :=
  ∃ centre, s.image? p = some centre ∧ s.canvas.rect.contains centre = true

/-- An item that is drawn for a sample: the ball, or the light on it. -/
structure IsDot (s : SpaceScene α) (p : Point α) (item : Item α) : Prop where
  role : item.role = .field
  depth : item.depth = (s.view.turned p).y
  shape : ∃ centre share fill, (share = 1 ∨ share = 3 / 10) ∧
    item.shape = .circle centre (6 * s.view.focalLength / s.ahead p * share) fill

theorem placeModel_eq (hv : s.view.extent.Positive) (p : Point α) :
    s.placeModel p = .ok ⟨s.view.turned p, s.image? p⟩ := by
  rw [placeModel, View.SpaceView.scales_eq hv, ok_bind, SpaceScene.place, Scene.place, Point.rotated_eq, ok_bind]
  rfl

theorem OnCanvas.ahead_ne_zero (h : s.OnCanvas p) : s.ahead p ≠ 0 := by
  obtain ⟨centre, hcentre, -⟩ := h
  intro hzero
  have hbeq : (s.view.focalLength + (s.view.turned p).y ==
      @OfScientific.ofScientific α Scalar.toOfScientific 0 true 1) = true := Scalar.beq_zero_iff.mpr hzero
  rw [image?, Lens.image?] at hcentre
  cases (if_pos hbeq).symm.trans hcentre

theorem dot_eq_ok {lo hi value : α} (h : s.dot lo hi ⟨s.view.turned p, s.image? p⟩ value = .ok items) :
    (∀ item ∈ items, s.OnCanvas p ∧ s.IsDot p item) ∧ (s.OnCanvas p → ∃ item ∈ items, s.IsDot p item) := by
  have hsix : (6.0 : α) = 6 := by
    norm_num only [ExactScalar.scientific_eq]
  have hshine : (0.3 : α) = 3 / 10 := by
    norm_num only [ExactScalar.scientific_eq]
  unfold dot at h
  split at h
  · next himage =>
    obtain rfl := pure_eq_ok.mp h
    refine ⟨fun _ hitem => absurd hitem List.not_mem_nil, fun ⟨centre, hcentre, _⟩ => ?_⟩
    cases himage.symm.trans hcentre
  · next centre himage =>
    split at h
    · next hcontains =>
      have hcanvas : s.OnCanvas p := ⟨centre, himage, hcontains⟩
      obtain ⟨radius, hradius, h⟩ := bind_eq_ok.mp h
      obtain ⟨_, -, h⟩ := bind_eq_ok.mp h
      obtain ⟨_, -, h⟩ := bind_eq_ok.mp h
      obtain rfl := pure_eq_ok.mp h
      obtain rfl : 6 * s.view.focalLength / s.ahead p = radius := by
        rw [hsix] at hradius
        exact Except.ok.inj ((Scalar.divide_of_ne_zero hcanvas.ahead_ne_zero).symm.trans hradius)
      refine ⟨fun item hitem => ⟨hcanvas, ?_⟩,
        fun _ => ⟨_, List.mem_cons_self, rfl, rfl, _, 1, _, .inl rfl, by rw [mul_one]⟩⟩
      rcases List.mem_pair.mp hitem with rfl | rfl
      · exact ⟨rfl, rfl, _, 1, _, .inl rfl, by rw [mul_one]⟩
      · exact ⟨rfl, rfl, _, 3 / 10, _, .inr rfl, by rw [hshine]⟩
    · next houtside =>
      obtain rfl := pure_eq_ok.mp h
      refine ⟨fun _ hitem => absurd hitem List.not_mem_nil, fun ⟨q, hq, hcontains⟩ => ?_⟩
      cases himage.symm.trans hq
      exact absurd hcontains houtside

/-- The radius of a dot has the sign of the distance from the eye. -/
theorem IsDot.radius_pos_iff {item : Item α} {radius : α} (h : s.IsDot p item) (hfocal : 0 < s.view.focalLength)
    (hcanvas : s.OnCanvas p) (hradius : HasRadius item radius) :
    radius ≠ 0 ∧ (0 < radius ↔ 0 < s.ahead p) := by
  obtain ⟨centre, fill, hitem⟩ := hradius
  obtain ⟨-, -, _, share, _, hshare, hshape⟩ := h
  obtain ⟨-, rfl, -⟩ := Shape.circle.inj (hitem.symm.trans hshape)
  have hpos : 0 < share := by
    rcases hshare with rfl | rfl <;> norm_num
  have hnumerator : 0 < 6 * s.view.focalLength := by positivity
  refine ⟨mul_ne_zero (div_ne_zero hnumerator.ne' hcanvas.ahead_ne_zero) hpos.ne', ?_⟩
  rw [mul_pos_iff_of_pos_right hpos, div_pos_iff_of_pos_left hnumerator]

/-! ### All dots of a scene -/

/-- The circles among some items are the dots of those samples that have an image on the canvas. -/
structure Dotted (s : SpaceScene α) (readings : List (Reading α)) (items : List (Item α)) : Prop where
  sampled : ∀ item ∈ items, item.shape.isCircle = true →
    ∃ r ∈ readings, s.OnCanvas r.position ∧ s.IsDot r.position item
  drawn : ∀ r ∈ readings, s.OnCanvas r.position → ∃ item ∈ items, s.IsDot r.position item

theorem Dotted.of_plain (h : ∀ item ∈ items, Plain item) : s.Dotted [] items where
  sampled item hitem hcircle := absurd ((h item hitem).symm.trans hcircle) Bool.false_ne_true
  drawn _ hr := absurd hr List.not_mem_nil

theorem Dotted.nil : s.Dotted [] [] :=
  .of_plain fun _ hitem => absurd hitem List.not_mem_nil

/-- The dots stay what they are where other items are drawn too. -/
theorem Dotted.extend (h : s.Dotted readings items) (hall : ∀ item ∈ items, item ∈ more)
    (hmore : ∀ item ∈ more, item ∈ items ∨ Plain item) : s.Dotted readings more where
  sampled item hitem hcircle := by
    rcases hmore item hitem with hitem | hplain
    · exact h.sampled item hitem hcircle
    · cases hplain.symm.trans hcircle
  drawn r hr hcanvas := by
    obtain ⟨item, hitem, hdot⟩ := h.drawn r hr hcanvas
    exact ⟨item, hall item hitem, hdot⟩

theorem Dotted.append (h : s.Dotted readings items) (hmore : ∀ item ∈ more, Plain item) :
    s.Dotted readings (items ++ more) :=
  h.extend (fun _ hitem => List.mem_append_left more hitem) fun item hitem =>
    (List.mem_append.mp hitem).imp_right (hmore item)

theorem Dotted.prepend (h : s.Dotted readings items) (hmore : ∀ item ∈ more, Plain item) :
    s.Dotted readings (more ++ items) :=
  h.extend (fun _ hitem => List.mem_append_right more hitem) fun item hitem =>
    (List.mem_append.mp hitem).symm.imp_right (hmore item)

theorem dots_dotted (hv : s.view.extent.Positive) {lo hi : α} (h : s.dots lo hi readings = .ok items) :
    s.Dotted readings items := by
  obtain ⟨entries, hentries, h⟩ := bind_eq_ok.mp h
  have hentry : entries = readings.map fun r => (⟨s.view.turned r.position, s.image? r.position⟩, r.value) := by
    refine Except.ok.inj (hentries.symm.trans (mapM_eq_map _ fun r _ => ?_))
    rw [placeModel_eq hv]
    rfl
  obtain ⟨parts, hparts, rfl⟩ := flatMapM_eq_ok.mp h
  have hmem (entry : Placed α × α) : entry ∈ farthestFirst (fun entry => entry.1.point.y) entries ↔
      ∃ r ∈ readings, (⟨s.view.turned r.position, s.image? r.position⟩, r.value) = entry := by
    rw [(farthestFirst_perm _ _).mem_iff, hentry, List.mem_map]
  constructor
  · intro item hitem _
    obtain ⟨part, hpart, hitem⟩ := List.mem_flatten.mp hitem
    obtain ⟨entry, hplaced, hdot⟩ := exists_of_mem_right hparts hpart
    obtain ⟨r, hr, rfl⟩ := (hmem entry).mp hplaced
    exact ⟨r, hr, (dot_eq_ok hdot).1 item hitem⟩
  · intro r hr hcanvas
    obtain ⟨part, hpart, hdot⟩ := exists_of_mem_right hparts.flip ((hmem _).mpr ⟨r, hr, rfl⟩)
    obtain ⟨item, hitem, hdot⟩ := (dot_eq_ok hdot).2 hcanvas
    exact ⟨item, List.mem_flatten.mpr ⟨part, hpart, hitem⟩, hdot⟩

/-! ### What else is drawn -/

theorem colourBar_plain (lo hi : α) : ∀ item ∈ s.colourBar lo hi, Plain item := by
  have hdrawn : Emits (Drawn (fun _ => True) IsUndotted) (.ok (s.colourBar lo hi)) :=
    .ok (Canvas.colourBar_drawn (by simp [IsUndotted]) _ _ _ _)
  exact Plain.of_drawn hdrawn _ rfl

theorem contours_plain (onSurface : Bool) (count : ℤ) (width opacity : α) (grid : Sampling.Grid α) :
    Emits Plain (s.contours onSurface count width opacity grid) :=
  .of_drawn (contours_drawn (shows_anything _) (by simp [IsUndotted]) _ _ _ _ _)

theorem surface_plain (jet : Bool) (grid : Sampling.Grid α) : Emits Plain (s.surface jet grid) :=
  .of_drawn (surface_drawn (by simp [IsUndotted]) (by simp [IsUndotted]) _ _)

theorem vectorSurface_plain (grid : Sampling.Grid α) : Emits Plain (s.vectorSurface grid) :=
  .of_drawn (vectorSurface_drawn (by simp [IsUndotted]) (by simp [IsUndotted]) _)

theorem vectorArrows_plain : Emits Plain s.vectorArrows :=
  .of_drawn (vectorArrows_drawn (shows_anything _) (by simp [IsUndotted]) (by simp [IsUndotted]))

theorem standingCurve_plain : Emits Plain s.standingCurve :=
  .of_drawn (standingCurve_drawn (shows_anything _) (by simp [IsUndotted]) (by simp [IsUndotted])
    (by simp [IsUndotted]))

theorem frame_plain : Emits Plain s.frame := by
  refine (frame_framed (shows_anything _)).mono fun item hitem => Bool.eq_false_iff.mpr fun hcircle => ?_
  have hrole := hitem.known
  rw [IsFramed, hitem.circle hcircle] at hrole
  cases hrole

/-! ### Which samples are drawn -/

/-- Whether a plot in space shows its samples as dots. -/
def drawsDots (s : SpaceScene α) : Bool :=
  let r := s.request
  r.plotMode = .field &&
    if r.field.isSome then r.surfaceMode = .none || r.spatial else r.surfaceMode = .none && r.spatial

/-- Whether there is nothing to show of a field, which is zero wherever it has been sampled. -/
def isBlank (s : SpaceScene α) (readings : List (Reading α)) : Bool :=
  s.request.field.isSome && (Sampling.readingRange readings).any (·.2 == 0.0)

/-- The samples that are drawn as dots. -/
def drawnReadings (s : SpaceScene α) : Except Fault (List (Reading α)) :=
  if s.drawsDots then do
    let readings ← s.dotReadings
    return if s.isBlank readings then [] else readings
  else .ok []

theorem readings_eq_nil {readings : List (Reading α)} (h : Sampling.readingRange readings = none) : readings = [] := by
  cases readings with
  | nil => rfl
  | cons r readings => cases h

theorem scalarField_dotted (hv : s.view.extent.Positive) (hfield : s.request.field.isSome = false)
    (h : s.scalarField = .ok items) : ∃ readings, s.dotReadings = .ok readings ∧ s.isBlank readings = false ∧
      s.Dotted readings items := by
  obtain ⟨cells, hcells, h⟩ := bind_eq_ok.mp h
  obtain ⟨readings, hreadings, h⟩ := bind_eq_ok.mp h
  refine ⟨readings, ?_, ?_, ?_⟩
  · rw [dotReadings, hfield]
    exact bind_eq_ok.mpr ⟨cells, hcells, hreadings⟩
  · rw [isBlank, hfield, Bool.false_and]
  · split at h
    · next hnone =>
      obtain rfl := pure_eq_ok.mp h
      obtain rfl := readings_eq_nil hnone
      exact .nil
    · obtain ⟨dots, hdots, h⟩ := bind_eq_ok.mp h
      obtain rfl := pure_eq_ok.mp h
      exact (dots_dotted hv hdots).append (colourBar_plain _ _)

theorem magnitudeField_dotted (hv : s.view.extent.Positive) (hfield : s.request.field.isSome = true)
    (h : s.magnitudeField = .ok items) : ∃ readings, s.dotReadings = .ok readings ∧
      s.Dotted (if s.isBlank readings then [] else readings) items := by
  obtain ⟨cells, hcells, h⟩ := bind_eq_ok.mp h
  obtain ⟨readings, hreadings, h⟩ := bind_eq_ok.mp h
  refine ⟨readings, ?_, ?_⟩
  · rw [dotReadings, hfield]
    exact bind_eq_ok.mpr ⟨cells, hcells, hreadings⟩
  · rw [isBlank, hfield, Bool.true_and]
    split at h
    · next hnone =>
      obtain rfl := pure_eq_ok.mp h
      obtain rfl := readings_eq_nil hnone
      exact .nil
    · next hi hrange =>
      rw [hrange, Option.any_some]
      split at h
      · next hzero =>
        obtain rfl := pure_eq_ok.mp h
        rw [if_pos hzero]
        exact .nil
      · next hpeak =>
        obtain ⟨dots, hdots, h⟩ := bind_eq_ok.mp h
        obtain rfl := pure_eq_ok.mp h
        rw [if_neg hpeak]
        exact (dots_dotted hv hdots).append (colourBar_plain _ _)

theorem drawnReadings_of_dots {readings : List (Reading α)} (hdraws : s.drawsDots = true)
    (h : s.dotReadings = .ok readings) :
    s.drawnReadings = .ok (if s.isBlank readings then [] else readings) := by
  rw [drawnReadings, if_pos hdraws, h]
  rfl

theorem drawnReadings_of_plain (hdraws : s.drawsDots = false)
    (h : ∀ item ∈ items, Plain item) :
    ∃ readings, s.drawnReadings = .ok readings ∧ s.Dotted readings items :=
  ⟨[], if_neg (Bool.eq_false_iff.mp hdraws), .of_plain h⟩

theorem vectorContent_dotted (hv : s.view.extent.Positive) (hfield : s.request.field.isSome = true)
    (h : s.vectorContent = .ok items) : ∃ readings, s.drawnReadings = .ok readings ∧ s.Dotted readings items := by
  unfold vectorContent at h
  dsimp only at h
  split at h
  · next hsurface =>
    simp only [Bool.and_eq_true, decide_eq_true_iff, Bool.not_eq_true'] at hsurface
    obtain ⟨grid, -, h⟩ := bind_eq_ok.mp h
    obtain ⟨surface, hpainted, h⟩ := bind_eq_ok.mp h
    obtain ⟨contours, hcontours, h⟩ := branch_eq_ok.mp h
    obtain ⟨arrows, harrows, h⟩ := branch_eq_ok.mp h
    obtain rfl := pure_eq_ok.mp h
    refine drawnReadings_of_plain (by simp [drawsDots, hfield, hsurface]) ?_
    refine List.forall_mem_append.mpr ⟨List.forall_mem_append.mpr ⟨?_, ?_⟩, ?_⟩
    · exact vectorSurface_plain _ _ hpainted
    · exact (contours_plain _ _ _ _ _).optional _ hcontours
    · exact vectorArrows_plain.optional _ harrows
  · next hlattice =>
    split at h
    · next hmode =>
      obtain ⟨readings, hreadings, hdotted⟩ := magnitudeField_dotted hv hfield h
      refine ⟨_, drawnReadings_of_dots ?_ hreadings, hdotted⟩
      simpa [drawsDots, hfield, hmode, or_iff_not_imp_left] using hlattice
    · next hmode => exact drawnReadings_of_plain (by simp [drawsDots, hmode]) (vectorArrows_plain _ h)

theorem functionContent_dotted (hv : s.view.extent.Positive) (hfield : s.request.field.isSome = false)
    (hspatial : s.request.spatial = true) (h : s.functionContent = .ok items) :
    ∃ readings, s.drawnReadings = .ok readings ∧ s.Dotted readings items := by
  unfold functionContent at h
  dsimp only at h
  split at h
  · next hmode =>
    simp only [Bool.and_eq_true, decide_eq_true_iff] at hmode
    obtain ⟨field, hdots, h⟩ := bind_eq_ok.mp h
    obtain ⟨readings, hreadings, hblank, hdotted⟩ := scalarField_dotted hv hfield hdots
    refine ⟨readings, ?_, ?_⟩
    · rw [drawnReadings_of_dots (by simp [drawsDots, hfield, hspatial, hmode]) hreadings, hblank]
      rfl
    · split at h
      · obtain ⟨grid, -, h⟩ := bind_eq_ok.mp h
        obtain ⟨contours, hcontours, h⟩ := bind_eq_ok.mp h
        exact pure_eq_ok.mp h ▸ hdotted.append (contours_plain _ _ _ _ _ _ hcontours)
      · exact pure_eq_ok.mp h ▸ hdotted.append fun _ hitem => absurd hitem List.not_mem_nil
  · next hmode =>
    have hdraws : s.drawsDots = false := by
      simpa [drawsDots, hfield, hspatial] using hmode
    obtain ⟨grid, -, h⟩ := bind_eq_ok.mp h
    obtain ⟨surface, hsurface, h⟩ := bind_eq_ok.mp h
    refine drawnReadings_of_plain hdraws ?_
    split at h
    · obtain ⟨count, -, h⟩ := bind_eq_ok.mp h
      obtain ⟨contours, hcontours, h⟩ := bind_eq_ok.mp h
      obtain rfl := pure_eq_ok.mp h
      exact List.forall_mem_append.mpr ⟨surface_plain _ _ _ hsurface, contours_plain _ _ _ _ _ _ hcontours⟩
    · obtain rfl := pure_eq_ok.mp h
      exact List.forall_mem_append.mpr ⟨surface_plain _ _ _ hsurface, fun _ hitem => absurd hitem List.not_mem_nil⟩

/-- The circles of a whole scene are the dots of its samples. -/
theorem build_dotted (hv : s.view.extent.Positive) (h : s.build = .ok items) :
    ∃ readings, s.drawnReadings = .ok readings ∧ s.Dotted readings items := by
  obtain ⟨frame, hframe, h⟩ := bind_eq_ok.mp h
  obtain ⟨plotted, hcontent, h⟩ := bind_eq_ok.mp h
  obtain rfl := pure_eq_ok.mp h
  suffices hdotted : ∃ readings, s.drawnReadings = .ok readings ∧ s.Dotted readings plotted by
    obtain ⟨readings, hreadings, hdotted⟩ := hdotted
    exact ⟨readings, hreadings, hdotted.prepend (frame_plain _ hframe)⟩
  unfold content at hcontent
  split at hcontent
  · next hfield => exact vectorContent_dotted hv hfield hcontent
  · next hfield =>
    have hfield := Bool.eq_false_iff.mpr hfield
    split at hcontent
    · next hspatial => exact functionContent_dotted hv hfield hspatial hcontent
    · next hplanar =>
      exact drawnReadings_of_plain (by simp [drawsDots, hfield, hplanar]) (standingCurve_plain _ hcontent)

/-! ### Dots ahead of the eye and behind it -/

theorem within_of_mem_collect {β : Type} {sample : Point α → Except Fault β} {value : β → Option α} {spatial : Bool}
    {extent : Extent α} {cells : ℤ} {sites : List (Point α)} {r : Reading α} (hextent : extent.Positive)
    (hsites : Sampling.fieldSites spatial extent cells = .ok sites)
    (h : Sampling.collect (fun p => return (value (← sample p)).map (Reading.mk p)) sites = .ok readings)
    (hr : r ∈ readings) : Within extent r.position := by
  obtain ⟨p, hp, hread⟩ := Sampling.exists_of_mem_collect h hr
  obtain ⟨v, -, hread⟩ := bind_eq_ok.mp hread
  obtain ⟨_, -, rfl⟩ := Option.map_eq_some_iff.mp (pure_eq_ok.mp hread)
  exact Sampling.within_of_mem_fieldSites hextent hsites hp

theorem within_of_mem_drawnReadings (hv : s.view.extent.Positive) (h : s.drawnReadings = .ok readings)
    {r : Reading α} (hr : r ∈ readings) : Within s.view.extent r.position := by
  unfold drawnReadings at h
  split at h
  · obtain ⟨sampled, hsampled, h⟩ := bind_eq_ok.mp h
    have hmem : r ∈ sampled := by
      rw [← pure_eq_ok.mp h] at hr
      split at hr
      · cases hr
      · exact hr
    unfold dotReadings at hsampled
    split at hsampled
    · obtain ⟨cells, -, hsampled⟩ := bind_eq_ok.mp hsampled
      obtain ⟨sites, hsites, hsampled⟩ := bind_eq_ok.mp hsampled
      exact within_of_mem_collect hv hsites hsampled hmem
    · obtain ⟨cells, -, hsampled⟩ := bind_eq_ok.mp hsampled
      obtain ⟨sites, hsites, hsampled⟩ := bind_eq_ok.mp hsampled
      have hspatial : Sampling.fieldSites true s.view.extent cells = .ok sites := hsites
      exact within_of_mem_collect hv hspatial hsampled hmem
  · cases Except.ok.inj h
    cases hr

theorem IsDot.exists_radius {item : Item α} (h : s.IsDot p item) : ∃ radius, HasRadius item radius := by
  obtain ⟨-, -, centre, share, fill, -, hshape⟩ := h
  exact ⟨_, centre, fill, hshape⟩

theorem Dotted.radius_pos_iff (h : s.Dotted readings items) (hfocal : 0 < s.view.focalLength) :
    (∀ item ∈ items, ∀ radius, HasRadius item radius →
      radius ≠ 0 ∧ (0 < radius ↔ 0 < s.view.focalLength + item.depth)) ∧
    ((∀ item ∈ items, ∀ radius, HasRadius item radius → 0 < radius) ↔
      ∀ r ∈ readings, s.OnCanvas r.position → 0 < s.ahead r.position) := by
  refine ⟨fun item hitem radius hradius => ?_, fun hpos r hr hcanvas => ?_, fun hahead item hitem radius hradius => ?_⟩
  · obtain ⟨r, -, hcanvas, hdot⟩ := h.sampled item hitem hradius.isCircle
    rw [hdot.depth]
    exact hdot.radius_pos_iff hfocal hcanvas hradius
  · obtain ⟨item, hitem, hdot⟩ := h.drawn r hr hcanvas
    obtain ⟨radius, hradius⟩ := hdot.exists_radius
    exact (hdot.radius_pos_iff hfocal hcanvas hradius).2.mp (hpos item hitem radius hradius)
  · obtain ⟨r, hr, hcanvas, hdot⟩ := h.sampled item hitem hradius.isCircle
    exact (hdot.radius_pos_iff hfocal hcanvas hradius).2.mpr (hahead r hr hcanvas)

theorem ahead_pos_of_reach_le (hv : s.view.extent.Positive) (hreach : 200 * s.view.reach ≤ s.view.focalLength)
    (hp : Within s.view.extent p) (hcanvas : s.OnCanvas p) : 0 < s.ahead p := by
  have hy := (abs_le.mp (View.SpaceView.abs_turned_y_le hv hp)).1
  refine lt_of_le_of_ne ?_ hcanvas.ahead_ne_zero.symm
  rw [ahead]
  linarith

section

variable {s : SpaceScene ℝ} {items : List (Item ℝ)}

/-- A circle has a positive radius exactly if its sample is ahead of the eye, and all circles of a plot have one
exactly if no sample behind the eye has an image on the canvas. To be as far away as the scene reaches is enough. -/
theorem radius_pos_iff_ahead (hv : s.view.extent.Positive) (hfocal : 0 < s.view.focalLength)
    (h : s.build = .ok items) : ∃ readings, s.drawnReadings = .ok readings ∧
      (∀ item ∈ items, ∀ radius, HasRadius item radius →
        radius ≠ 0 ∧ (0 < radius ↔ 0 < s.view.focalLength + item.depth)) ∧
      ((∀ item ∈ items, ∀ radius, HasRadius item radius → 0 < radius) ↔
        ∀ r ∈ readings, s.OnCanvas r.position → 0 < s.ahead r.position) ∧
      (200 * s.view.reach ≤ s.view.focalLength ∨ 120000 ≤ s.view.focalLength ^ 2 →
        ∀ item ∈ items, ∀ radius, HasRadius item radius → 0 < radius) := by
  obtain ⟨readings, hreadings, hdotted⟩ := build_dotted hv h
  obtain ⟨hsign, hall⟩ := hdotted.radius_pos_iff hfocal
  refine ⟨readings, hreadings, hsign, hall, fun hfar => hall.mpr fun r hr hcanvas => ?_⟩
  have hreach : 200 * s.view.reach ≤ s.view.focalLength := by
    refine hfar.elim id fun hsq => le_of_abs_le (abs_le_of_sq_le_sq ?_ hfocal.le)
    rw [mul_pow]
    linarith [View.SpaceView.reach_sq_le Real.cos_sq_add_sin_sq s.view]
  exact ahead_pos_of_reach_le hv hreach (within_of_mem_drawnReadings hv hreadings hr) hcanvas

end

/-! ### Corners -/

/-- The request for the sum of the coordinates. -/
def total : Request :=
  ⟨['x', '+', 'y', '+', 'z'], none, true, .field, .none, false, true, []⟩

theorem exists_total (p : Point ℝ) : ∃ a, total.samples.scalar p = .ok (some a) :=
  Expression.Formula.exists_sample (by decide +kernel) p

/-- The sum of the coordinates, sampled at the corners of a view that is not turned. -/
noncomputable def corners (focal : ℝ) : SpaceScene ℝ where
  request := total
  samples := total.samples
  view := { SpaceView.initial with
    rotationX := 0
    rotationZ := 0
    focalLength := focal }
  palette := .ofTable Settings.appearanceDefaults
  detail := { Detail.ofTable (Settings.samplingDefaults : Settings.Table ℝ) with fieldLattice := .ok 1 }
  canvas := ⟨800, 600⟩

theorem corners_extent_positive (focal : ℝ) : (corners focal).view.extent.Positive :=
  ⟨initial_extent_positive.x, initial_extent_positive.y, initial_extent_positive.z⟩

theorem corners_sound (focal : ℝ) : (corners focal).Sound where
  evaluates :=
    ⟨fun _ p => (exists_total p).imp' some fun _ h => h, fun h => nomatch h⟩
  view :=
    have h : (SpaceView.initial : SpaceView ℝ).Sound := SpaceView.initial_sound
    ⟨h.rangeX, h.rangeY, h.rangeZ, h.minRange⟩
  palette := Palette.default_sound
  detail :=
    have h : (Detail.ofTable (Settings.samplingDefaults : Settings.Table ℝ)).Sound := Detail.default_sound
    { h with fieldLattice := ⟨1, rfl, one_pos⟩ }
  canvas := ⟨by norm_num [corners], by norm_num [corners]⟩

theorem corners_turned (focal c : ℝ) : (corners focal).view.turned ⟨c, c, c⟩ = ⟨40 * c, 40 * c, 40 * c⟩ := by
  have hcos : Scalar.cos (0 : ℝ) = 1 := Real.cos_zero
  have hsin : Scalar.sin (0 : ℝ) = 0 := Real.sin_zero
  have hscale : c * (200 / (5.0 : ℝ)) = 40 * c := by
    rw [ExactScalar.scientific_eq]
    ring
  simp only [View.SpaceView.turned, Point.turned, Point.turnedX, Point.turnedZ, View.SpaceView.scale, corners,
    SpaceView.initial, hcos, hsin, hscale, mul_one, mul_zero, sub_zero, zero_add]

theorem corners_onCanvas {focal c scale : ℝ} (hahead : focal + 40 * c ≠ 0) (hscale : focal / (focal + 40 * c) = scale)
    (hx : |40 * c * scale| ≤ 400) (hz : |40 * c * scale| ≤ 300) : (corners focal).OnCanvas ⟨c, c, c⟩ := by
  have himage : (corners focal).image? ⟨c, c, c⟩ = some ⟨400 + 40 * c * scale, 300 - 40 * c * scale⟩ := by
    rw [image?, corners_turned, image?_eq hahead]
    show some (Pixel.mk (800 / 2.0 + 40 * c * (focal / (focal + 40 * c)) + 0.0)
      (600 / 2.0 - 40 * c * (focal / (focal + 40 * c)) + 0.0)) = _
    rw [hscale]
    norm_num [ExactScalar.scientific_eq]
  have hcovers : (corners focal).canvas.rect.Covers ⟨400 + 40 * c * scale, 300 - 40 * c * scale⟩ := by
    rw [Rect.covers_iff_coordinates, Canvas.rect, Rect.ofSize, Scalar.literal_zero]
    rw [abs_le] at hx hz
    refine ⟨⟨?_, ?_⟩, ?_, ?_⟩ <;> simp only [corners] <;> linarith
  refine ⟨_, himage, ?_⟩
  rw [Rect.contains, Pixel.isFinite, LawfulScalar.isFinite_eq, LawfulScalar.isFinite_eq,
    Rect.of_eq_inside_iff.mpr hcovers]
  rfl

theorem exists_corner {focal c : ℝ} {readings : List (Reading ℝ)} (hc : c = 5 ∨ c = -5)
    (h : (corners focal).drawnReadings = .ok readings) : ∃ r ∈ readings, r.position = ⟨c, c, c⟩ := by
  obtain ⟨sampled, hsampled, h⟩ := bind_eq_ok.mp h
  obtain rfl := pure_eq_ok.mp h
  have hsampled : Sampling.scalarField (corners focal).samples.scalar (corners focal).view.extent 1 = .ok sampled :=
    hsampled
  obtain ⟨sites, hsites, hsampled⟩ := bind_eq_ok.mp hsampled
  obtain ⟨_, hsome, hlattice⟩ := Sampling.spaceSites_sites (corners_extent_positive focal) 1
  obtain rfl := Except.ok.inj (hsites.symm.trans hsome)
  have hend : Sampling.OnAxis (5.0 : ℝ) 1 c := by
    rcases hc with rfl | rfl
    · exact ⟨1, le_rfl, by norm_num [Sampling.position]⟩
    · exact ⟨0, zero_le_one, by norm_num [Sampling.position]⟩
  have hsite : Sampling.IsSite true (corners focal).view.extent 1 ⟨c, c, c⟩ := ⟨hend, hend, hend⟩
  have hplace (p : Point ℝ) (r : Reading ℝ)
      (h : (do return (← (corners focal).samples.scalar p).map (Reading.mk p)) = .ok (some r)) : r.position = p := by
    obtain ⟨_, -, h⟩ := bind_eq_ok.mp h
    obtain ⟨_, -, rfl⟩ := Option.map_eq_some_iff.mp (pure_eq_ok.mp h)
    rfl
  obtain ⟨-, hmem⟩ := Sampling.collect_map hplace hsampled
  obtain ⟨a, ha⟩ := exists_total ⟨c, c, c⟩
  have hread : (do return (← (corners focal).samples.scalar ⟨c, c, c⟩).map (Reading.mk ⟨c, c, c⟩)) =
      .ok (some (Reading.mk ⟨c, c, c⟩ a)) := bind_eq_ok.mpr ⟨_, ha, rfl⟩
  exact List.mem_map.mp ((hmem _).mpr ⟨(hlattice.mem_iff _).mpr hsite, _, hread⟩)

theorem exists_corner_dot {focal c : ℝ} {items : List (Item ℝ)} (hc : c = 5 ∨ c = -5)
    (hcanvas : (corners focal).OnCanvas ⟨c, c, c⟩) (h : (corners focal).build = .ok items) :
    ∃ item ∈ items, (corners focal).IsDot ⟨c, c, c⟩ item := by
  obtain ⟨readings, hreadings, hdotted⟩ := build_dotted (corners_extent_positive focal) h
  obtain ⟨r, hr, hcorner⟩ := exists_corner hc hreadings
  rw [← hcorner] at hcanvas ⊢
  exact hdotted.drawn r hr hcanvas

theorem radius_pos_iff_ahead_corners : ∃ items, (corners 500).build = .ok items ∧
    (corners 500).view.extent.Positive ∧ 0 < (corners 500).view.focalLength ∧
    (∃ item ∈ items, ∃ radius, HasRadius item radius) ∧
    ∀ item ∈ items, ∀ radius, HasRadius item radius → 0 < radius := by
  have hv := corners_extent_positive 500
  have hfocal : 0 < (corners 500).view.focalLength := by norm_num [corners]
  obtain ⟨items, hitems⟩ := build_returns (corners_sound 500)
  obtain ⟨readings, hreadings, -, -, hfar⟩ := radius_pos_iff_ahead hv hfocal hitems
  refine ⟨items, hitems, hv, hfocal, ?_, hfar (.inr (by norm_num [corners]))⟩
  have hcanvas : (corners 500).OnCanvas ⟨5, 5, 5⟩ :=
    corners_onCanvas (by norm_num) rfl (by norm_num [abs_le]) (by norm_num [abs_le])
  obtain ⟨item, hitem, hdot⟩ := exists_corner_dot (.inl rfl) hcanvas hitems
  exact ⟨item, hitem, hdot.exists_radius⟩

/-- An eye in the middle of a half of the scene draws the corner behind it. -/
theorem circle_of_corner_behind_eye : ∃ items, (corners 100).build = .ok items ∧
    (corners 100).view.extent.Positive ∧ 0 < (corners 100).view.focalLength ∧
    ∃ item ∈ items, ∃ radius, HasRadius item radius ∧ radius < 0 := by
  have hv := corners_extent_positive 100
  have hfocal : 0 < (corners 100).view.focalLength := by norm_num [corners]
  obtain ⟨items, hitems⟩ := build_returns (corners_sound 100)
  refine ⟨items, hitems, hv, hfocal, ?_⟩
  have hcanvas : (corners 100).OnCanvas ⟨-5, -5, -5⟩ :=
    corners_onCanvas (by norm_num) rfl (by norm_num [abs_le]) (by norm_num [abs_le])
  obtain ⟨item, hitem, hdot⟩ := exists_corner_dot (.inr rfl) hcanvas hitems
  obtain ⟨radius, hradius⟩ := hdot.exists_radius
  refine ⟨item, hitem, radius, hradius, lt_of_not_ge fun hnonneg => ?_⟩
  obtain ⟨hne, hpos⟩ := hdot.radius_pos_iff hfocal hcanvas hradius
  have hahead := hpos.mp (lt_of_le_of_ne hnonneg hne.symm)
  rw [ahead, corners_turned] at hahead
  norm_num [corners] at hahead

end Scene.SpaceScene

end FieldPlot
