import FieldPlot.Proofs.Scene.Drawing
import FieldPlot.Scene.Plane

/-! The items of a scene in the plane, emitter by emitter: which parts they play, and that all segments among
them are visible parts. -/

namespace FieldPlot.Scene.PlaneScene

open Canvas (Shows line_drawn path_drawn text_drawn arrowHead_drawn)

variable {α : Type} [Scalar α] {s : PlaneScene α} {shown : Pixel α → Prop} {stroke : Stroke α} {role : Role}
  {roles : List Role}

theorem modelLine_drawn (h : s.canvas.Shows shown) (hrole : role ∈ roles) (p q : α × α) :
    Emits (Plays shown roles) (s.modelLine stroke role p q) :=
  .bind fun _ _ => .bind fun _ _ => line_drawn h hrole _ _

theorem colourBar_drawn (hrole : .colourBar ∈ roles) (lo hi : α) :
    ∀ item ∈ s.colourBar lo hi, Plays shown roles item :=
  Canvas.colourBar_drawn hrole _ _ _ _

/-! ### Grid, axes and numbers -/

theorem columns_drawn (h : s.canvas.Shows shown) (hrole : role ∈ roles) (start spacing : α) :
    Emits (Plays shown roles) (s.columns stroke role start spacing) :=
  .bind fun _ _ => .flatMapM fun _ _ => modelLine_drawn h hrole _ _

theorem rows_drawn (h : s.canvas.Shows shown) (hrole : role ∈ roles) (start spacing : α) :
    Emits (Plays shown roles) (s.rows stroke role start spacing) :=
  .bind fun _ _ => .flatMapM fun _ _ => modelLine_drawn h hrole _ _

theorem grid_drawn (h : s.canvas.Shows shown) : Emits (Plays shown [.subgrid, .grid]) s.grid := by
  refine .bind fun _ _ => .bind fun _ _ => .bind fun _ _ => .bind fun _ _ => .bind fun _ _ => ?_
  refine .branch (columns_drawn h (by decide) _ _) .nil fun _ hfineColumns => .bind fun _ _ => ?_
  refine .branch (rows_drawn h (by decide) _ _) .nil fun _ hfineRows => ?_
  refine .andThen (columns_drawn h (by decide) _ _) fun _ hcolumns => ?_
  refine .andThen (rows_drawn h (by decide) _ _) fun _ hrows => ?_
  exact .append (List.forall_mem_append.mpr ⟨List.forall_mem_append.mpr ⟨hfineColumns, hfineRows⟩,
    hcolumns⟩) hrows

theorem axisLine_drawn (h : s.canvas.Shows shown) (hglow : .axisGlow ∈ roles) (hcore : .axis ∈ roles)
    (p q : α × α) : Emits (Plays shown roles) (s.axisLine p q) :=
  .andThen (modelLine_drawn h hglow _ _) fun _ hglow => .andThen (modelLine_drawn h hcore _ _) fun _ hcore =>
    .append hglow hcore

theorem ticksX_drawn (h : s.canvas.Shows shown) (hrole : .tick ∈ roles) : Emits (Plays shown roles) s.ticksX :=
  .bind fun _ _ => .bind fun _ _ => .bind fun _ _ => .flatMapM fun _ _ => .bind fun _ _ =>
    line_drawn h hrole _ _

theorem ticksY_drawn (h : s.canvas.Shows shown) (hrole : .tick ∈ roles) : Emits (Plays shown roles) s.ticksY :=
  .bind fun _ _ => .bind fun _ _ => .bind fun _ _ => .flatMapM fun _ _ => .bind fun _ _ =>
    line_drawn h hrole _ _

theorem axes_drawn (h : s.canvas.Shows shown) : Emits (Plays shown [.axisGlow, .axis, .tick]) s.axes := by
  refine .branch (axisLine_drawn h (by decide) (by decide) _ _) .nil fun _ haxisX => ?_
  refine .branch (axisLine_drawn h (by decide) (by decide) _ _) .nil fun _ haxisY => ?_
  refine .branch (ticksX_drawn h (by decide)) .nil fun _ hticksX => ?_
  refine .branch (ticksY_drawn h (by decide)) .nil fun _ hticksY => ?_
  exact .append (List.forall_mem_append.mpr ⟨List.forall_mem_append.mpr ⟨haxisX, haxisY⟩, hticksX⟩) hticksY

theorem labelsX_drawn : Emits (Plays shown [.label]) s.labelsX := by
  refine .bind fun _ _ => .bind fun _ _ => .bind fun _ _ => .mapM fun _ _ item hitem => ?_
  obtain ⟨_, -, hitem⟩ := bind_eq_ok.mp hitem
  exact pure_eq_ok.mp hitem ▸ text_drawn (by decide) _ _ _ _

theorem labelsY_drawn : Emits (Plays shown [.label]) s.labelsY := by
  refine .bind fun _ _ => .bind fun _ _ => .bind fun _ _ => .mapM fun _ _ item hitem => ?_
  obtain ⟨_, -, hitem⟩ := bind_eq_ok.mp hitem
  exact pure_eq_ok.mp hitem ▸ text_drawn (by decide) _ _ _ _

theorem labels_drawn : Emits (Plays shown [.label]) s.labels :=
  .branch labelsX_drawn .nil fun _ hlabelsX => .branch labelsY_drawn .nil fun _ hlabelsY =>
    .append hlabelsX hlabelsY

/-! ### Heatmap and iso-lines -/

theorem heatmapTiles_drawn (hrole : .heatmap ∈ roles) (cells : Int) (lo hi : α)
    (values : List (List (Option α))) : Emits (Plays shown roles) (s.heatmapTiles cells lo hi values) := by
  refine .bind fun _ _ => .bind fun _ _ => .bind fun _ _ => .bind fun _ _ => ?_
  refine .flatMapM fun column _ => .flatMapM fun entry _ => ?_
  dsimp only
  split
  · exact .nil
  · refine .bind fun _ _ => .bind fun _ _ => .ok fun item hitem => ?_
    obtain rfl := List.mem_singleton.mp hitem
    exact .of_area hrole rfl rfl

theorem heatmap_drawn : Emits (Plays shown [.heatmap, .colourBar]) s.heatmap := by
  unfold heatmap
  split
  · refine .bind fun _ _ => .bind fun _ _ => ?_
    dsimp only
    split
    · exact .andThen (heatmapTiles_drawn (by decide) _ _ _ _) fun _ htiles =>
        .append htiles (colourBar_drawn (by decide) _ _)
    · exact .nil
  · exact .nil

theorem contours_drawn (h : s.canvas.Shows shown) : Emits (Plays shown [.contour]) s.contours := by
  unfold contours
  split
  · refine .bind fun _ _ => .bind fun grid _ => ?_
    split
    · exact .nil
    · refine .bind fun _ _ => .bind fun _ _ => .flatMapM fun _ _ => .bind fun _ _ => .bind fun _ _ => ?_
      exact .bind fun _ _ => .flatMapM fun _ _ => modelLine_drawn h (by decide) _ _
  · exact .nil

/-! ### Curves, dots and arrows -/

theorem curve_drawn (h : s.canvas.Shows shown) (hrole : .curve ∈ roles) : Emits (Plays shown roles) s.curve :=
  .bind fun _ _ => .bind fun _ _ => .flatMapM fun _ _ => .bind fun _ _ => path_drawn h hrole _

theorem dots_drawn (hdot : .field ∈ roles) (hbar : .colourBar ∈ roles) (lo hi : α) (count : Int)
    (readings : List (Sampling.Reading α)) : Emits (Plays shown roles) (s.dots lo hi count readings) := by
  refine .bind fun _ _ => .bind fun _ _ => .andThen (.mapM fun reading _ item hitem => ?_) fun _ hcircles => ?_
  · simp only [bind_eq_ok, pure_eq_ok] at hitem
    obtain ⟨_, -, _, -, _, -, rfl⟩ := hitem
    exact .of_dot hdot rfl rfl
  · refine .append hcircles ?_
    split
    · exact colourBar_drawn hbar _ _
    · exact fun _ h => nomatch h

theorem scalarDots_drawn (hdot : .field ∈ roles) (hbar : .colourBar ∈ roles) :
    Emits (Plays shown roles) s.scalarDots := by
  refine .bind fun _ _ => .bind fun _ _ => ?_
  split
  · exact .nil
  · exact dots_drawn hdot hbar _ _ _ _

theorem magnitudeDots_drawn (hdot : .field ∈ roles) (hbar : .colourBar ∈ roles) :
    Emits (Plays shown roles) s.magnitudeDots := by
  refine .bind fun _ _ => .bind fun _ _ => ?_
  split
  · exact .nil
  · exact dots_drawn hdot hbar _ _ _ _

theorem arrow_drawn (h : s.canvas.Shows shown) (hrole : .arrow ∈ roles) (length largest : α) (p : Point α)
    (v : Vectors.Vec (Option α)) : Emits (Plays shown roles) (s.arrow length largest p v) := by
  unfold arrow
  split
  · exact .nil
  · split
    · exact .nil
    · refine .bind fun _ _ => .bind fun _ _ => .bind fun _ _ => .bind fun _ _ => .bind fun _ _ => ?_
      refine .andThen (line_drawn h hrole _ _) fun _ hshaft => ?_
      split
      · exact .ok hshaft
      · exact .andThen (arrowHead_drawn h hrole _ _ _ _) fun _ hhead => .append hshaft hhead

theorem arrows_drawn (h : s.canvas.Shows shown) (harrow : .arrow ∈ roles) (hbar : .colourBar ∈ roles) :
    Emits (Plays shown roles) s.arrows := by
  refine .bind fun _ _ => .bind fun _ _ => .bind fun _ _ => .bind fun _ _ => .bind fun _ _ => ?_
  refine .andThen (.flatMapM fun _ _ => arrow_drawn h harrow _ _ _ _) fun _ harrows => .append harrows ?_
  split
  · exact colourBar_drawn hbar _ _
  · exact fun _ h => nomatch h

/-! ### The whole scene -/

theorem content_drawn (h : s.canvas.Shows shown) :
    Emits (Plays shown [.field, .arrow, .curve, .colourBar]) s.content := by
  unfold content
  split
  · exact magnitudeDots_drawn (by decide) (by decide)
  · exact scalarDots_drawn (by decide) (by decide)
  · exact arrows_drawn h (by decide) (by decide)
  · exact curve_drawn h (by decide)

theorem build_shown (h : s.canvas.Shows shown) : Emits (Shown shown) s.build := by
  have hshown {roles : List Role} (item : Item α) (hitem : Plays shown roles item) : Shown shown item :=
    hitem.toShown
  refine .andThen ((grid_drawn h).mono hshown) fun _ hgrid => .andThen ((axes_drawn h).mono hshown) fun _ haxes => ?_
  refine .branch (heatmap_drawn.mono hshown) .nil fun _ hheatmap => ?_
  refine .andThen ((content_drawn h).mono hshown) fun _ hcontent => ?_
  refine .branch ((contours_drawn h).mono hshown) .nil fun _ hcontours => ?_
  refine .andThen (labels_drawn.mono hshown) fun _ hlabels => .append ?_ hlabels
  simp only [List.forall_mem_append]
  exact ⟨⟨⟨⟨hgrid, haxes⟩, hheatmap⟩, hcontent⟩, hcontours⟩

end FieldPlot.Scene.PlaneScene
