import FieldPlot.Proofs.Scene.Farthest
import FieldPlot.Proofs.Scene.SpaceDrawing

/-! What is plotted in space, layer by layer: the dots of a field, a surface, iso-lines, and arrows or a
curve. A layer that a plot does not have is empty. -/

namespace FieldPlot.Scene

open Sampling (Grid Reading Arrow)

variable {α β : Type} {role : Role} {items more : List (Item α)}

/-- An item that shows a cell. -/
def Paints (item : Item α) (cell : Quad α) : Prop :=
  item.depth = cell.depth ∧ ∃ fill, item.shape = .polygon cell.corners fill

variable [Scalar α]

/-- The items of a role come from the farthest to the nearest. -/
def Receding (role : Role) (items : List (Item α)) : Prop :=
  (items.filter (·.role = role)).Pairwise fun i j => j.depth ≤ i.depth

theorem Receding.of_absent (h : ∀ item ∈ items, item.role ≠ role) : Receding role items := by
  rw [Receding, filter_role_of_absent h]
  exact .nil

theorem Receding.append (h : Receding role items) (hmore : ∀ item ∈ more, item.role ≠ role) :
    Receding role (items ++ more) := by
  rw [Receding, List.filter_append, filter_role_of_absent hmore, List.append_nil]
  exact h

theorem Receding.prepend (h : Receding role items) (hmore : ∀ item ∈ more, item.role ≠ role) :
    Receding role (more ++ items) := by
  rw [Receding, List.filter_append, filter_role_of_absent hmore, List.nil_append]
  exact h

/-- Emitting several items for each element keeps the order of the elements. -/
theorem pairwise_of_flatMapM {distance : β → α} {l : List β} {f : β → Except Fault (List (Item α))}
    (hsorted : l.Pairwise fun a b => distance b ≤ distance a) (hself : ∀ b ∈ l, distance b ≤ distance b)
    (hdepth : ∀ b ∈ l, Emits (fun item => item.depth = distance b) (f b))
    (h : l.flatMapM f = .ok items) : items.Pairwise fun i j => j.depth ≤ i.depth := by
  induction l generalizing items with
  | nil => exact pure_eq_ok.mp h ▸ .nil
  | cons b l ih =>
    obtain ⟨hfirst, hsorted⟩ := List.pairwise_cons.mp hsorted
    obtain ⟨hb, hl⟩ := List.forall_mem_cons.mp hdepth
    obtain ⟨hself, hselfs⟩ := List.forall_mem_cons.mp hself
    rw [List.flatMapM_cons] at h
    obtain ⟨part, hpart, h⟩ := bind_eq_ok.mp h
    obtain ⟨rest, hrest, h⟩ := bind_eq_ok.mp h
    obtain rfl := pure_eq_ok.mp h
    refine List.pairwise_append.mpr ⟨?_, ih hsorted hselfs hl hrest, fun i hi j hj => ?_⟩
    -- All items of `b` lie at the depth of `b`; that it is at most itself has to be known, as NaN is not.
    · refine List.pairwise_of_forall_mem_list fun i hi j hj => ?_
      rw [hb part hpart i hi, hb part hpart j hj]
      exact hself
    · have hdepths : Emits (fun item => ∃ c ∈ l, item.depth = distance c) (l.flatMapM f) :=
        .flatMapM fun c hc => (hl c hc).mono fun _ hitem => ⟨c, hc, hitem⟩
      obtain ⟨c, hc, hdepth⟩ := hdepths rest hrest j hj
      rw [hb part hpart i hi, hdepth]
      exact hfirst c hc

/-- Points whose distances have an order, unless none of the points is seen. -/
def Comparable (among : Placed α → Prop) : Prop :=
  (∀ p, among p → Scalar.isUndefined p.point.y = false) ∨ ∀ p, among p → p.image = none

theorem receding_of_flatMapM [OrderedScalar α] {placed : β → Placed α} {l : List β}
    {f : β → Except Fault (List (Item α))} (hcomparable : Comparable fun p => ∃ b ∈ l, placed b = p)
    (hunseen : ∀ b ∈ l, (placed b).image = none → f b = .ok [])
    (hdepth : ∀ b ∈ l, Emits (fun item => item.depth = (placed b).point.y) (f b))
    (h : (farthestFirst (fun b => (placed b).point.y) l).flatMapM f = .ok items) : Receding role items := by
  have hmem {b : β} (hb : b ∈ farthestFirst (fun b => (placed b).point.y) l) : b ∈ l :=
    (farthestFirst_perm _ l).mem_iff.mp hb
  rcases hcomparable with hdefined | hnone
  · have hdefined : ∀ b ∈ l, Scalar.isUndefined (placed b).point.y = false := fun b hb => hdefined _ ⟨b, hb, rfl⟩
    refine (pairwise_of_flatMapM (farthestFirst_pairwise hdefined) (fun b hb => ?_)
      (fun b hb => hdepth b (hmem hb)) h).filter _
    exact or_self_iff.mp (OrderedScalar.le_total (hdefined b (hmem hb)) (hdefined b (hmem hb)))
  · obtain ⟨parts, hparts, rfl⟩ := flatMapM_eq_ok.mp h
    refine .of_absent fun item hitem => ?_
    obtain ⟨part, hpart, hitem⟩ := List.mem_flatten.mp hitem
    obtain ⟨b, hb, hpart⟩ := exists_of_mem_right hparts hpart
    rw [hunseen b (hmem hb) (hnone _ ⟨b, hmem hb, rfl⟩)] at hpart
    cases hpart
    cases hitem

namespace SpaceScene

variable {s : SpaceScene α}

/-! ### What is sorted -/

/-- The cells of the surface that is shown, in grid order; none where there is no surface. -/
def shownCells (s : SpaceScene α) : Except Fault (List (Quad α)) :=
  let r := s.request
  if r.field.isSome then
    if r.surfaceMode ≠ .none && !r.spatial then do s.gridQuads (← s.vectorGrid) else .ok []
  else if r.spatial && !(r.plotMode = .field && r.surfaceMode = .none) then do s.gridQuads (← s.scalarGrid)
  else .ok []

/-- The samples that are shown as dots. -/
def dotReadings (s : SpaceScene α) : Except Fault (List (Reading α)) :=
  if s.request.field.isSome then do
    Sampling.fieldMagnitudes s.samples.vector s.request.spatial s.view.extent (← s.detail.magnitudeLattice)
  else do Sampling.scalarField s.samples.scalar s.view.extent (← s.detail.fieldLattice)

/-- The arrows of a field where they are shown. -/
def placedArrows (s : SpaceScene α) : Except Fault (List (PlacedArrow α)) := do
  let arrows ← Sampling.arrows s.samples.vector s.request.spatial s.request.surfaceMode s.view.extent
    (← s.detail.spaceArrows)
  s.placeArrows ((Scalar.largest? (arrows.map fun a => Scalar.abs a.surfaceValue)).getD 0.0) arrows

/-- The distances that a scene is sorted by have an order. -/
structure Depths (s : SpaceScene α) : Prop where
  cells {cells : List (Quad α)} : s.shownCells = .ok cells → ∀ c ∈ cells, Scalar.isUndefined c.depth = false
  dots {readings : List (Reading α)} : s.dotReadings = .ok readings →
    Comparable fun p => ∃ r ∈ readings, s.placeModel r.position = .ok p
  arrows {arrows : List (PlacedArrow α)} : s.placedArrows = .ok arrows → Comparable fun p => ∃ a ∈ arrows, a.placed = p

/-! ### The layers -/

structure FieldLayer (items : List (Item α)) : Prop where
  roles : ∀ item ∈ items, item.role ∈ [.field, .colourBar]
  recedes : Receding .field items

structure SurfaceLayer (cells : List (Quad α)) (items : List (Item α)) : Prop where
  roles : ∀ item ∈ items, item.role ∈ [.surface, .colourBar]
  painted : List.Forall₂ Paints (items.filter (·.role = .surface)) (sortQuads cells)

structure MarkLayer (items : List (Item α)) : Prop where
  roles : ∀ item ∈ items, item.role ∈ [.arrow, .colourBar, .dropline, .shadow, .curve]
  recedes : Receding .arrow items

theorem FieldLayer.nil : FieldLayer (α := α) [] :=
  ⟨fun _ h => (nomatch h), .of_absent fun _ h => nomatch h⟩

theorem SurfaceLayer.nil : SurfaceLayer (α := α) [] [] :=
  ⟨fun _ h => (nomatch h), by simp [sortQuads, farthestFirst]⟩

theorem MarkLayer.nil : MarkLayer (α := α) [] :=
  ⟨fun _ h => (nomatch h), .of_absent fun _ h => nomatch h⟩

theorem colourBar_role (lo hi : α) : ∀ item ∈ s.colourBar lo hi, item.role = .colourBar := by
  have hdrawn : ∀ item ∈ s.colourBar lo hi, Drawn (fun _ => True) (fun role _ => role = .colourBar) item :=
    Canvas.colourBar_drawn rfl _ _ _ _
  exact fun item hitem => (hdrawn item hitem).known

theorem colourBar_absent (lo hi : α) (hrole : Role.colourBar ≠ role) :
    ∀ item ∈ s.colourBar lo hi, item.role ≠ role :=
  fun item hitem => colourBar_role lo hi item hitem ▸ hrole

/-! ### Dots of a field -/

section

variable [OrderedScalar α]

theorem dots_recede {lo hi : α} {readings : List (Reading α)}
    (hcomparable : Comparable fun p => ∃ r ∈ readings, s.placeModel r.position = .ok p)
    (h : s.dots lo hi readings = .ok items) : Receding .field items := by
  obtain ⟨entries, hentries, h⟩ := bind_eq_ok.mp h
  refine receding_of_flatMapM ?_ (fun entry _ hnone => ?_) (fun entry _ => ?_) h
  · have hplaced (p : Placed α) (hp : ∃ entry ∈ entries, entry.1 = p) :
        ∃ r ∈ readings, s.placeModel r.position = .ok p := by
      obtain ⟨entry, hentry, rfl⟩ := hp
      obtain ⟨r, hr, hlifted⟩ := exists_of_mem_right (mapM_eq_ok.mp hentries) hentry
      obtain ⟨placed, hplaced, hlifted⟩ := bind_eq_ok.mp hlifted
      obtain rfl := pure_eq_ok.mp hlifted
      exact ⟨r, hr, hplaced⟩
    exact hcomparable.imp (fun h p hp => h p (hplaced p hp)) fun h p hp => h p (hplaced p hp)
  · show s.dot lo hi entry.1 entry.2 = .ok []
    rw [dot, hnone]
    rfl
  · have hdrawn : Emits (Drawn (fun _ => True) fun _ depth => depth = entry.1.point.y)
        (s.dot lo hi entry.1 entry.2) := dot_drawn _ _ _ rfl _
    exact hdrawn.mono fun _ hitem => hitem.known

theorem dots_layer {lo hi : α} {readings : List (Reading α)} (hdepths : s.Depths)
    (hreadings : s.dotReadings = .ok readings) (h : s.dots lo hi readings = .ok items) (barLo barHi : α) :
    FieldLayer (items ++ s.colourBar barLo barHi) := by
  have hdrawn : Emits (Drawn (fun _ => True) fun role _ => role = .field) (s.dots lo hi readings) :=
    dots_drawn (fun _ => rfl) _ _ _
  refine ⟨fun item hitem => ?_, ?_⟩
  · rcases List.mem_append.mp hitem with hitem | hitem
    · simp [(hdrawn items h item hitem).known]
    · simp [colourBar_role _ _ item hitem]
  · exact (dots_recede (hdepths.dots hreadings) h).append (colourBar_absent _ _ (by decide))

theorem scalarField_layer (hdepths : s.Depths) (hfield : s.request.field.isSome = false)
    (h : s.scalarField = .ok items) : FieldLayer items := by
  obtain ⟨cells, hcells, h⟩ := bind_eq_ok.mp h
  obtain ⟨readings, hreadings, h⟩ := bind_eq_ok.mp h
  have hshown : s.dotReadings = .ok readings := by
    rw [dotReadings, hfield]
    exact bind_eq_ok.mpr ⟨cells, hcells, hreadings⟩
  split at h
  · exact pure_eq_ok.mp h ▸ .nil
  · obtain ⟨dots, hdots, h⟩ := bind_eq_ok.mp h
    exact pure_eq_ok.mp h ▸ dots_layer hdepths hshown hdots _ _

theorem magnitudeField_layer (hdepths : s.Depths) (hfield : s.request.field.isSome = true)
    (h : s.magnitudeField = .ok items) : FieldLayer items := by
  obtain ⟨cells, hcells, h⟩ := bind_eq_ok.mp h
  obtain ⟨readings, hreadings, h⟩ := bind_eq_ok.mp h
  have hshown : s.dotReadings = .ok readings := by
    rw [dotReadings, hfield]
    exact bind_eq_ok.mpr ⟨cells, hcells, hreadings⟩
  split at h
  · exact pure_eq_ok.mp h ▸ .nil
  · split at h
    · exact pure_eq_ok.mp h ▸ .nil
    · obtain ⟨dots, hdots, h⟩ := bind_eq_ok.mp h
      exact pure_eq_ok.mp h ▸ dots_layer hdepths hshown hdots _ _

end

/-! ### Surfaces and iso-lines -/

theorem paintQuads_paints {jet : Bool} {lo hi : α} {cells : List (Quad α)} {painted : List (Item α)}
    (h : s.paintQuads jet lo hi cells = .ok painted) : List.Forall₂ Paints painted (sortQuads cells) := by
  unfold paintQuads at h
  split at h
  -- The two gradients differ in their opacity; either paints every cell where it is.
  all_goals
    obtain ⟨opacity, -, h⟩ := bind_eq_ok.mp h
    refine ((mapM_eq_ok.mp h).imp fun cell item hitem => ?_).flip
    obtain ⟨colour, -, hitem⟩ := bind_eq_ok.mp hitem
    obtain rfl := pure_eq_ok.mp hitem
    exact ⟨rfl, _, rfl⟩

theorem surfaceLayer_of_painted {jet : Bool} {lo hi : α} {cells : List (Quad α)} {painted bar : List (Item α)}
    (h : s.paintQuads jet lo hi cells = .ok painted) (hbar : ∀ item ∈ bar, item.role = .colourBar) :
    SurfaceLayer cells (painted ++ bar) := by
  have hdrawn : Emits (Drawn (fun _ => True) fun role _ => role = .surface) (s.paintQuads jet lo hi cells) :=
    paintQuads_drawn (fun _ => rfl) _ _ _ _
  have hroles : ∀ item ∈ painted, item.role = .surface := fun item hitem => (hdrawn painted h item hitem).known
  have habsent : ∀ item ∈ bar, item.role ≠ .surface := fun item hitem => by simp [hbar item hitem]
  refine ⟨fun item hitem => ?_, ?_⟩
  · rcases List.mem_append.mp hitem with hitem | hitem
    · simp [hroles item hitem]
    · simp [hbar item hitem]
  · rw [List.filter_append, filter_role_of_all hroles, filter_role_of_absent habsent, List.append_nil]
    exact paintQuads_paints h

theorem surface_layer {jet : Bool} {grid : Grid α} (h : s.surface jet grid = .ok items) :
    ∃ cells, s.gridQuads grid = .ok cells ∧ SurfaceLayer cells items := by
  obtain ⟨cells, hcells, h⟩ := bind_eq_ok.mp h
  obtain ⟨painted, hpainted, h⟩ := bind_eq_ok.mp h
  obtain rfl := pure_eq_ok.mp h
  refine ⟨cells, hcells, surfaceLayer_of_painted hpainted fun item hitem => ?_⟩
  split at hitem
  · exact colourBar_role _ _ item hitem
  · cases hitem

theorem vectorSurface_layer {grid : Grid α} (h : s.vectorSurface grid = .ok items) :
    ∃ cells, s.gridQuads grid = .ok cells ∧ SurfaceLayer cells items := by
  obtain ⟨cells, hcells, h⟩ := bind_eq_ok.mp h
  obtain ⟨painted, hpainted, h⟩ := bind_eq_ok.mp h
  obtain rfl := pure_eq_ok.mp h
  exact ⟨cells, hcells, surfaceLayer_of_painted hpainted (colourBar_role _ _)⟩

theorem contours_role {onSurface : Bool} {count : ℤ} {width opacity : α} {grid : Grid α}
    (h : s.contours onSurface count width opacity grid = .ok items) :
    ∀ item ∈ items, item.role ∈ [.contour] := by
  have hdrawn : Emits (Drawn (fun _ => True) fun role _ => role ∈ [.contour])
      (s.contours onSurface count width opacity grid) :=
    contours_drawn (shows_anything _) (by simp) _ _ _ _ _
  exact fun item hitem => (hdrawn items h item hitem).known

/-! ### Arrows and curves -/

theorem placeArrow_eq_ok {scale : Point α} {onSurface : Bool} {heightScale : α} {arrow : Arrow α} {a : PlacedArrow α}
    (h : s.placeArrow scale onSurface heightScale arrow = .ok a) : a.arrow = arrow ∧
      a.start = ⟨arrow.start.x * scale.x, arrow.start.y * scale.y,
        (if onSurface then arrow.surfaceValue * heightScale else arrow.start.z) * scale.z⟩ ∧
      s.place a.start = .ok a.placed := by
  obtain ⟨_, hplace, h⟩ := bind_eq_ok.mp h
  cases pure_eq_ok.mp h
  exact ⟨rfl, rfl, hplace⟩

theorem placeArrows_map {peak : α} {arrows : List (Arrow α)} {placed : List (PlacedArrow α)}
    (h : s.placeArrows peak arrows = .ok placed) : placed.map (·.arrow) = arrows := by
  obtain ⟨_, -, h⟩ := branch_eq_ok.mp h
  obtain ⟨_, -, h⟩ := bind_eq_ok.mp h
  have hplaced := (mapM_eq_ok.mp h).imp fun _ _ h => (placeArrow_eq_ok h).1.symm
  exact (List.forall₂_eq_eq_eq ▸ List.forall₂_map_right_iff.mpr hplaced : arrows = _).symm

/-- Arrows are drawn from the farthest to the nearest, with the peak that `placedArrows` has. -/
theorem vectorArrows_eq_ok (h : s.vectorArrows = .ok items) :
    (items = [] ∧ ∀ placed, s.placedArrows = .ok placed → placed = []) ∨
      ∃ placed largest shown bar, s.placedArrows = .ok placed ∧
        (farthestFirst (fun a => a.placed.point.y) placed).flatMapM (s.arrow largest) = .ok shown ∧
        items = shown ++ bar ∧ ∀ item ∈ bar, item.role ≠ .arrow := by
  obtain ⟨cells, hcells, h⟩ := bind_eq_ok.mp h
  obtain ⟨arrows, harrows, h⟩ := bind_eq_ok.mp h
  cases arrows with
  | nil =>
    refine .inl ⟨(pure_eq_ok.mp h).symm, fun placed hplaced => ?_⟩
    rw [placedArrows, hcells, ok_bind, harrows, ok_bind] at hplaced
    exact List.map_eq_nil_iff.mp (placeArrows_map hplaced)
  | cons first arrows =>
    obtain ⟨placed, hplaced, h⟩ := bind_eq_ok.mp h
    obtain ⟨shown, hshown, h⟩ := bind_eq_ok.mp h
    refine .inr ⟨placed, _, shown, _, ?_, hshown, (pure_eq_ok.mp h).symm, ?_⟩
    · rw [placedArrows, hcells, ok_bind, harrows, ok_bind]
      exact hplaced
    · split
      · exact colourBar_absent _ _ (by decide)
      · exact fun _ hitem => nomatch hitem

theorem vectorArrows_layer [OrderedScalar α] (hdepths : s.Depths) (h : s.vectorArrows = .ok items) :
    MarkLayer items where
  roles item hitem := by
    have hdrawn : Emits (Drawn (fun _ => True) fun role _ =>
        role ∈ [.arrow, .colourBar, .dropline, .shadow, .curve]) s.vectorArrows :=
      vectorArrows_drawn (shows_anything _) (by simp) (by simp)
    exact (hdrawn items h item hitem).known
  recedes := by
    rcases vectorArrows_eq_ok h with ⟨rfl, -⟩ | ⟨placed, largest, shown, bar, hplaced, hshown, rfl, hbar⟩
    · exact MarkLayer.nil.recedes
    · have hdepth (a : PlacedArrow α) :
          Emits (fun item => item.depth = a.placed.point.y) (s.arrow largest a) := by
        have hdrawn : Emits (Drawn (fun _ => True) fun _ depth => depth = a.placed.point.y)
            (s.arrow largest a) := arrow_drawn (shows_anything _) _ _ rfl
        exact hdrawn.mono fun _ hitem => hitem.known
      have hunseen (a : PlacedArrow α) (hnone : a.placed.image = none) : s.arrow largest a = .ok [] := by
        rw [arrow, hnone]
        rfl
      exact (receding_of_flatMapM (hdepths.arrows hplaced) (fun a _ => hunseen a) (fun a _ => hdepth a)
        hshown).append hbar

theorem standingCurve_layer (h : s.standingCurve = .ok items) : MarkLayer items := by
  have hdrawn : Emits (Drawn (fun _ => True) fun role _ => role ∈ [.dropline, .shadow, .curve])
      s.standingCurve := standingCurve_drawn (shows_anything _) (by simp) (by simp) (by simp)
  have hroles item hitem := (hdrawn items h item hitem).known
  refine ⟨fun item hitem => ?_, .of_absent fun item hitem => ?_⟩
  · exact List.mem_cons_of_mem _ (List.mem_cons_of_mem _ (hroles item hitem))
  · have hrole := hroles item hitem
    rintro harrow
    simp [harrow] at hrole

end SpaceScene

end FieldPlot.Scene
