import FieldPlot.Proofs.Scene.Drawing
import FieldPlot.Scene.Space

/-! What a scene in space consists of, emitter by emitter: the frame of decorations alone, and the
content of the roles that its emitters give. -/

namespace FieldPlot.Scene.SpaceScene

open Canvas (Shows line_drawn path_drawn arrowHead_drawn colourBar_drawn)
open Sampling (Grid Reading)

variable {α : Type} [Scalar α] {s : SpaceScene α} {shown : Pixel α → Prop}
  {known : Role → α → Prop} {stroke : Stroke α} {role : Role}

theorem modelLine_drawn (h : s.canvas.Shows shown) (hknown : known role 0.0) (p q : Point α) :
    Emits (Drawn shown known) (s.modelLine stroke role p q) :=
  .bind fun _ _ => .bind fun _ _ => line_drawn h hknown _ _

/-! ### The frame -/

theorem floorLines_drawn (h : s.canvas.Shows shown) (hknown : known role 0.0) (spacingX spacingY : α) :
    Emits (Drawn shown known) (s.floorLines stroke role spacingX spacingY) := by
  refine .bind fun _ _ => .andThen (.flatMapM fun _ _ => modelLine_drawn h hknown _ _) fun _ halong => ?_
  refine .bind fun _ _ => .andThen (.flatMapM fun _ _ => modelLine_drawn h hknown _ _) fun _ hacross => ?_
  exact .append halong hacross

def IsFramed (role : Role) (_ : α) : Prop :=
  role.isDecoration = true

theorem floorGrid_framed (h : s.canvas.Shows shown) : Emits (Drawn shown IsFramed) s.floorGrid := by
  refine .bind fun _ _ => .bind fun _ _ => ?_
  refine .andThen (floorLines_drawn h rfl _ _) fun _ hfine => ?_
  exact .andThen (floorLines_drawn h rfl _ _) fun _ hcoarse => .append hfine hcoarse

theorem axisHead_framed (h : s.canvas.Shows shown) (colour : List Char) (origin tip : Pixel α) :
    Emits (Drawn shown IsFramed) (s.axisHead colour origin tip) := by
  unfold axisHead
  dsimp only
  split
  · exact .bind fun _ _ => .bind fun _ _ => path_drawn h rfl _
  · exact .nil

theorem axisTip_framed (h : s.canvas.Shows shown) (axis : Vectors.Axis) (origin tip : Option (Pixel α)) :
    Emits (Drawn shown IsFramed) (s.axisTip axis origin tip) := by
  unfold axisTip
  split
  · dsimp only
    split
    · refine .andThen (axisHead_framed h _ _ _) fun _ hhead => .append hhead fun item hitem => ?_
      obtain rfl := List.mem_singleton.mp hitem
      exact .of_area rfl rfl rfl
    · exact .nil
  · exact .nil

theorem tick_framed (h : s.canvas.Shows shown) (axis : Vectors.Axis) (scale t : α) :
    Emits (Drawn shown IsFramed) (s.tick axis scale t) := by
  refine .bind fun foot _ => ?_
  split
  · refine .andThen (.flatMapM fun _ _ => .bind fun _ _ => line_drawn h rfl _ _) fun strokes hstrokes => ?_
    refine .bind fun _ _ => ?_
    split
    · split
      · refine .append hstrokes fun item hitem => ?_
        obtain rfl := List.mem_singleton.mp hitem
        exact .of_area rfl rfl rfl
      · exact .ok hstrokes
    · exact .ok hstrokes
  · exact .nil

theorem axis_framed (h : s.canvas.Shows shown) (scale : Point α) (origin : Option (Pixel α))
    (axis : Vectors.Axis) : Emits (Drawn shown IsFramed) (s.axis scale origin axis) := by
  refine .bind fun _ _ => .bind fun _ _ => ?_
  refine .andThen (line_drawn h rfl _ _) fun _ hglow => .andThen (line_drawn h rfl _ _) fun _ hcore => ?_
  refine .bind fun _ _ => .andThen (axisTip_framed h _ _ _) fun _ htip => .bind fun _ _ => .bind fun _ _ => ?_
  refine .andThen (.flatMapM fun t _ => ?_) fun _ hticks => ?_
  · split
    · exact .nil
    · exact tick_framed h _ _ _
  · exact .append (List.forall_mem_append.mpr ⟨List.forall_mem_append.mpr ⟨hglow, hcore⟩, htip⟩) hticks

theorem axes_framed (h : s.canvas.Shows shown) : Emits (Drawn shown IsFramed) s.axes :=
  .bind fun _ _ => .bind fun _ _ => .flatMapM fun _ _ => axis_framed h _ _ _

theorem boundary_framed (h : s.canvas.Shows shown) : Emits (Drawn shown IsFramed) s.boundary :=
  .bind fun _ _ => .bind fun _ _ => .bind fun _ _ => .bind fun _ _ => .flatMapM fun _ _ =>
    line_drawn h rfl _ _

theorem frame_framed (h : s.canvas.Shows shown) : Emits (Drawn shown IsFramed) s.frame := by
  refine .andThen (floorGrid_framed h) fun _ hgrid => .andThen (axes_framed h) fun _ haxes => ?_
  refine .andThen (boundary_framed h) fun _ hboundary => ?_
  exact .append (List.forall_mem_append.mpr ⟨hgrid, haxes⟩) hboundary

/-! ### The content -/

theorem paintQuads_drawn (hknown : ∀ depth, known .surface depth) (jet : Bool) (lo hi : α)
    (cells : List (Quad α)) : Emits (Drawn shown known) (s.paintQuads jet lo hi cells) := by
  unfold paintQuads
  split
  all_goals
    refine .bind fun _ _ => .mapM fun quad _ item hitem => ?_
    obtain ⟨_, -, hitem⟩ := bind_eq_ok.mp hitem
    obtain rfl := pure_eq_ok.mp hitem
    exact .of_area (hknown _) rfl rfl

theorem surface_drawn (hknown : ∀ depth, known .surface depth) (hbar : known .colourBar 0.0) (jet : Bool)
    (grid : Grid α) : Emits (Drawn shown known) (s.surface jet grid) := by
  refine .bind fun _ _ => .andThen (paintQuads_drawn hknown _ _ _ _) fun _ hpainted => .append hpainted ?_
  split
  · exact colourBar_drawn hbar _ _ _ _
  · exact fun _ h => nomatch h

theorem vectorSurface_drawn (hknown : ∀ depth, known .surface depth) (hbar : known .colourBar 0.0)
    (grid : Grid α) : Emits (Drawn shown known) (s.vectorSurface grid) :=
  .bind fun _ _ => .andThen (paintQuads_drawn hknown _ _ _ _) fun _ hpainted =>
    .append hpainted (colourBar_drawn hbar _ _ _ _)

theorem isoLine_drawn (h : s.canvas.Shows shown) (hknown : known .contour 0.0) (grid : Grid α) (level z : α) :
    Emits (Drawn shown known) (s.isoLine stroke grid level z) :=
  .bind fun _ _ => .flatMapM fun _ _ => modelLine_drawn h hknown _ _

theorem contours_drawn (h : s.canvas.Shows shown) (hknown : known .contour 0.0) (onSurface : Bool)
    (count : Int) (width opacity : α) (grid : Grid α) :
    Emits (Drawn shown known) (s.contours onSurface count width opacity grid) := by
  unfold contours
  split
  · exact .nil
  · refine .bind fun _ _ => ?_
    dsimp only
    split
    all_goals
      refine .bind fun _ _ => .flatMapM fun _ _ => .bind fun _ _ => .bind fun _ _ => ?_
      exact isoLine_drawn h hknown _ _ _

theorem dropLine_drawn (h : s.canvas.Shows shown) (hknown : known .dropline 0.0) (steps every : Int)
    (x value : α) : Emits (Drawn shown known) (s.dropLine steps every x value) := by
  refine .bind fun _ _ => .bind fun _ _ => ?_
  split
  · exact fun _ hthrow => nomatch hthrow
  · split
    · exact modelLine_drawn h hknown _ _
    · exact .nil

theorem standingCurve_drawn (h : s.canvas.Shows shown) (hdrop : known .dropline 0.0)
    (hshadow : known .shadow 0.0) (hcurve : known .curve 0.0) :
    Emits (Drawn shown known) s.standingCurve := by
  refine .bind fun _ _ => .bind fun _ _ => .bind fun _ _ => ?_
  refine .andThen (.flatMapM fun _ _ => .flatMapM fun _ _ => dropLine_drawn h hdrop _ _ _ _) fun _ hdrops => ?_
  refine .andThen (.flatMapM fun _ _ => .bind fun _ _ => path_drawn h hshadow _) fun _ hshadows => ?_
  refine .andThen (.flatMapM fun _ _ => .bind fun _ _ => path_drawn h hcurve _) fun _ hcurves => ?_
  exact .append (List.forall_mem_append.mpr ⟨hdrops, hshadows⟩) hcurves

theorem dot_drawn (lo hi : α) (placed : Placed α) (hknown : known .field placed.point.y) (value : α) :
    Emits (Drawn shown known) (s.dot lo hi placed value) := by
  unfold dot
  split
  · exact .nil
  · split
    · refine .bind fun _ _ => .bind fun _ _ => .bind fun _ _ => .ok fun item hitem => ?_
      rcases List.mem_pair.mp hitem with rfl | rfl
      · exact .of_dot hknown rfl rfl
      · exact .of_dot hknown rfl rfl
    · exact .nil

theorem dots_drawn (hknown : ∀ depth, known .field depth) (lo hi : α) (readings : List (Reading α)) :
    Emits (Drawn shown known) (s.dots lo hi readings) :=
  .bind fun _ _ => .flatMapM fun _ _ => dot_drawn _ _ _ (hknown _) _

theorem scalarField_drawn (hknown : ∀ depth, known .field depth) (hbar : known .colourBar 0.0) :
    Emits (Drawn shown known) s.scalarField := by
  refine .bind fun _ _ => .bind fun _ _ => ?_
  split
  · exact .nil
  · exact .andThen (dots_drawn hknown _ _ _) fun _ hdots => .append hdots (colourBar_drawn hbar _ _ _ _)

theorem magnitudeField_drawn (hknown : ∀ depth, known .field depth) (hbar : known .colourBar 0.0) :
    Emits (Drawn shown known) s.magnitudeField := by
  refine .bind fun _ _ => .bind fun _ _ => ?_
  split
  · exact .nil
  · split
    · exact .nil
    · exact .andThen (dots_drawn hknown _ _ _) fun _ hdots => .append hdots (colourBar_drawn hbar _ _ _ _)

theorem arrow_drawn (h : s.canvas.Shows shown) (largest : α) (a : PlacedArrow α)
    (hknown : known .arrow a.placed.point.y) : Emits (Drawn shown known) (s.arrow largest a) := by
  unfold arrow
  split
  · exact .nil
  · split
    · refine .bind fun _ _ => .bind fun _ _ => .bind fun _ _ => ?_
      refine .andThen (line_drawn h hknown _ _) fun _ hshaft => ?_
      split
      · exact .ok hshaft
      · dsimp only
        split
        · exact .andThen (arrowHead_drawn h hknown _ _ _ _) fun _ hhead => .append hshaft hhead
        · exact .ok hshaft
    · exact .nil

theorem vectorArrows_drawn (h : s.canvas.Shows shown) (hknown : ∀ depth, known .arrow depth)
    (hbar : known .colourBar 0.0) : Emits (Drawn shown known) s.vectorArrows := by
  refine .bind fun _ _ => .bind fun _ _ => ?_
  split
  · refine .bind fun _ _ => .andThen (.flatMapM fun _ _ => arrow_drawn h _ _ (hknown _)) fun _ harrows => ?_
    refine .append harrows ?_
    split
    · exact colourBar_drawn hbar _ _ _ _
    · exact fun _ h => nomatch h
  · exact .nil

def IsContent (role : Role) (_ : α) : Prop :=
  role.isDecoration = false

theorem vectorContent_drawn (h : s.canvas.Shows shown) :
    Emits (Drawn shown IsContent) s.vectorContent := by
  unfold vectorContent
  dsimp only
  split
  · refine .bind fun grid _ => .andThen (vectorSurface_drawn (fun _ => rfl) rfl _) fun _ hsurface => ?_
    refine .branch (contours_drawn h rfl _ _ _ _ _) .nil fun _ hcontours => ?_
    refine .branch (vectorArrows_drawn h (fun _ => rfl) rfl) .nil fun _ harrows => ?_
    exact .append (List.forall_mem_append.mpr ⟨hsurface, hcontours⟩) harrows
  · split
    · exact magnitudeField_drawn (fun _ => rfl) rfl
    · exact vectorArrows_drawn h (fun _ => rfl) rfl

theorem functionContent_drawn (h : s.canvas.Shows shown) :
    Emits (Drawn shown IsContent) s.functionContent := by
  unfold functionContent
  dsimp only
  split
  · refine .andThen (scalarField_drawn (fun _ => rfl) rfl) fun _ hfield => ?_
    split
    · exact .bind fun _ _ => .andThen (contours_drawn h rfl _ _ _ _ _) fun _ hcontours =>
        .append hfield hcontours
    · exact .andThen .nil fun _ hnone => .append hfield hnone
  · refine .bind fun grid _ => .andThen (surface_drawn (fun _ => rfl) rfl _ _) fun _ hsurface => ?_
    split
    · exact .bind fun _ _ => .andThen (contours_drawn h rfl _ _ _ _ _) fun _ hcontours =>
        .append hsurface hcontours
    · exact .andThen .nil fun _ hnone => .append hsurface hnone

theorem content_drawn (h : s.canvas.Shows shown) : Emits (Drawn shown IsContent) s.content := by
  unfold content
  split
  · exact vectorContent_drawn h
  · split
    · exact functionContent_drawn h
    · exact standingCurve_drawn h rfl rfl rfl

end FieldPlot.Scene.SpaceScene
