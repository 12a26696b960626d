import FieldPlot.Proofs.View.Screen
import FieldPlot.Engine

/-! Gestures on a plot in the plane. Drags add up: where they lead depends on their sum alone, and the content
goes with the cursor. A zoom is about the model point under the cursor, and the reverse zoom undoes it. -/

namespace FieldPlot.Engine

open Expression (Arithmetic)
open Settings (Table Value)
open View (PlaneView ZoomAxis)
open View.PlaneView (Open Zoomed toModel toScreen zoomAlong)

/-- The axis that a zoom in the plane acts on, by the settings and the place of the cursor. -/
def cursorAxis {α : Type} [Scalar α] (cursor : Pixel α) (height : α) (e : Engine α) : Except Fault ZoomAxis := do
  let part := e.part "view2d"
  let axis ← part.lookup "zoomAxis" (.text "free")
  let zone ← (← part.lookup "axisZonePx" (.real 60.0)).toReal
  return ZoomAxis.detect cursor height zone (← ZoomAxis.ofValue axis)

section

variable {α : Type} [LawfulScalar α] {e : Engine α}

theorem side_ne_zero (side : α) : max 1 side ≠ 0 :=
  (lt_max_of_lt_left one_pos).ne'

/-! ### Drags -/

/-- Drags one after the other; where one fails, those behind it are not made. -/
def drag (width height : α) (drags : List (α × α)) (e : Engine α) : Step (Engine α) :=
  drags.foldl (fun step d => step.andThen (pan d.1 d.2 width height)) (.done e)

theorem pan_plane (hplane : e.isSpace = .ok false) {dx dy width height : α} {w : PlaneView α}
    (hw : PlaneView.panBy dx dy (max 1 width) (max 1 height) e.plane = .ok w) :
    pan dx dy width height e = .done { e with plane := w } := by
  simp only [pan, gesture, hplane, Scalar.larger_eq_max, Scalar.literal_one, hw]
  rfl

theorem pan_pan (hplane : e.isSpace = .ok false) (dx dy dx' dy' width height : α) :
    (pan dx dy width height e).andThen (pan dx' dy' width height) =
      pan (dx + dx') (dy + dy') width height e := by
  have hwidth := side_ne_zero width
  have hheight := side_ne_zero height
  obtain ⟨w, hw⟩ : ∃ w, PlaneView.panBy dx dy (max 1 width) (max 1 height) e.plane = .ok w :=
    ⟨_, PlaneView.panBy_eq e.plane hwidth hheight dx dy⟩
  have hboth := PlaneView.panBy_eq e.plane hwidth hheight (dx + dx') (dy + dy')
  have hsecond := (PlaneView.panBy_panBy hwidth hheight hw dx' dy').trans hboth
  rw [pan_plane hplane hw, pan_plane hplane hboth]
  exact pan_plane (e := { e with plane := w }) hplane hsecond

theorem drag_eq_pan (hplane : e.isSpace = .ok false) (width height : α) (drags : List (α × α)) :
    drag width height drags e = pan (drags.map Prod.fst).sum (drags.map Prod.snd).sum width height e := by
  -- The drags made so far are one, which the next one adds to.
  have hfold (dx dy : α) : drags.foldl (fun step d => step.andThen (pan d.1 d.2 width height))
      (pan dx dy width height e) =
        pan (dx + (drags.map Prod.fst).sum) (dy + (drags.map Prod.snd).sum) width height e := by
    induction drags generalizing dx dy with
    | nil => simp
    | cons d drags ih =>
      rw [List.foldl_cons, pan_pan hplane, ih, List.map_cons, List.map_cons, List.sum_cons, List.sum_cons,
        add_assoc, add_assoc]
  have hnone := pan_plane hplane (PlaneView.panBy_zero e.plane (side_ne_zero width) (side_ne_zero height))
  have hzero := hfold 0 0
  rw [zero_add, zero_add, hnone] at hzero
  exact hzero

/-- Drags come through, and the place of every model point moves by their sum. The spans of the window stay, and
where it ends up depends on nothing but the sum. -/
theorem drags_move_content (hplane : e.isSpace = .ok false) (hopen : Open e.plane) (width height : α)
    (drags : List (α × α)) : ∃ w : PlaneView α, drag width height drags e = .done { e with plane := w } ∧
      (∀ x y, ∃ p, toScreen e.plane (max 1 width) (max 1 height) x y = .ok p ∧
        toScreen w (max 1 width) (max 1 height) x y =
          .ok ⟨p.x + (drags.map Prod.fst).sum, p.y + (drags.map Prod.snd).sum⟩) ∧
      w.spanX = e.plane.spanX ∧ w.spanY = e.plane.spanY ∧
      ∀ others : List (α × α), (others.map Prod.fst).sum = (drags.map Prod.fst).sum →
        (others.map Prod.snd).sum = (drags.map Prod.snd).sum →
        drag width height others e = .done { e with plane := w } := by
  have hwidth := side_ne_zero width
  have hheight := side_ne_zero height
  have hw := PlaneView.panBy_eq e.plane hwidth hheight (drags.map Prod.fst).sum (drags.map Prod.snd).sum
  have hpan := pan_plane hplane hw
  obtain ⟨hspanX, hspanY⟩ := PlaneView.panBy_spans hw
  refine ⟨_, (drag_eq_pan hplane width height drags).trans hpan, fun x y => ?_, hspanX, hspanY, ?_⟩
  · have hp := PlaneView.toScreen_eq hopen (max 1 width) (max 1 height) x y
    exact ⟨_, hp, PlaneView.toScreen_panBy hopen hwidth hheight hw hp⟩
  · intro others hx hy
    rw [drag_eq_pan hplane, hx, hy, hpan]

end

/-- The plot that a window opens with, shown in the plane. -/
def flat : Engine ℚ :=
  (setParams (.table [("plot", .table [("dimension", .text "2d")])]) (initial : Step (Engine ℚ)).state).state

theorem flat_isSpace : flat.isSpace = .ok false := by
  decide +kernel

theorem flat_plane : flat.plane = ⟨-5, 5, -5, 5⟩ := by
  decide +kernel

theorem flat_sound : PlaneView.Sound flat.plane := by
  rw [flat_plane]
  constructor <;> norm_num

/-- Two drags on a canvas of 200 by 100 pixels, and the same way in one. -/
theorem drags_move_content_flat : flat.isSpace = .ok false ∧ Open flat.plane ∧ ∃ w : PlaneView ℚ,
    drag 200 100 [(30, -10), (-5, 20)] flat = .done { flat with plane := w } ∧
      (∀ x y, ∃ p, toScreen flat.plane (max 1 200) (max 1 100) x y = .ok p ∧
        toScreen w (max 1 200) (max 1 100) x y = .ok ⟨p.x + 25, p.y + 10⟩) ∧
      drag 200 100 [(25, 10)] flat = .done { flat with plane := w } := by
  have hopen := flat_sound.isOpen
  obtain ⟨w, hw, hcontent, -, -, hothers⟩ :=
    drags_move_content flat_isSpace hopen 200 100 [(30, -10), (-5, 20)]
  have hx : (([(30, -10), (-5, 20)] : List (ℚ × ℚ)).map Prod.fst).sum = 25 := by norm_num
  have hy : (([(30, -10), (-5, 20)] : List (ℚ × ℚ)).map Prod.snd).sum = 10 := by norm_num
  rw [hx, hy] at hcontent
  have hone := hothers [(25, 10)] (by rw [hx]; norm_num) (by rw [hy]; norm_num)
  exact ⟨flat_isSpace, hopen, w, hw, hcontent, hone⟩

/-! ### Zooms -/

section

variable {α : Type} [LawfulScalar α] {e : Engine α}

variable {factor width height : α} {cursor : Pixel α} {m : α × α}

theorem zoomPlane_eq (hm : toModel e.plane (max 1 width) (max 1 height) cursor = .ok m) (factor : α) :
    e.zoomPlane factor cursor width height = (do
      let axis ← e.cursorAxis cursor height
      return { e with
        plane := if ZoomAxis.isEffective factor then zoomAlong axis factor m e.plane else e.plane }) := by
  simp only [zoomPlane, cursorAxis, Scalar.larger_eq_max, Scalar.literal_one, hm, bind_assoc, pure_bind, ok_bind,
    PlaneView.zoom_eq]

variable [Arithmetic α]

theorem zoom_plane (hplane : e.isSpace = .ok false)
    (hm : toModel e.plane (max 1 width) (max 1 height) cursor = .ok m) {axis : ZoomAxis}
    (haxis : e.cursorAxis cursor height = .ok axis) (factor : α) :
    zoom factor cursor width height e = .done { e with
      plane := if ZoomAxis.isEffective factor then zoomAlong axis factor m e.plane else e.plane } := by
  simp only [zoom, gesture, hplane, zoomPlane_eq hm, haxis, ok_bind]
  rfl

theorem zoom_plane_refused (hplane : e.isSpace = .ok false) {f : Fault}
    (hf : e.cursorAxis cursor height = .error f) (factor width : α) :
    zoom factor cursor width height e = .failed e f := by
  have hm := PlaneView.toModel_eq e.plane (side_ne_zero width) (side_ne_zero height) cursor
  simp only [zoom, gesture, hplane, zoomPlane_eq hm, hf]
  rfl

theorem zoom_plane_idle (hplane : e.isSpace = .ok false) (hfactor : ¬ZoomAxis.isEffective factor = true)
    (cursor : Pixel α) (width height : α) : (zoom factor cursor width height e).state = e := by
  have hm := PlaneView.toModel_eq e.plane (side_ne_zero width) (side_ne_zero height) cursor
  cases haxis : e.cursorAxis cursor height with
  | error f => rw [zoom_plane_refused hplane haxis, Step.failed]
  | ok axis => rw [zoom_plane hplane hm haxis, if_neg hfactor, Step.done]

/-- The point under the cursor is under it after a zoom about it, so that a second zoom is about it again. -/
theorem zoom_plane_undone (hplane : e.isSpace = .ok false) (hopen : Open e.plane)
    (hm : toModel e.plane (max 1 width) (max 1 height) cursor = .ok m) {axis : ZoomAxis}
    (haxis : e.cursorAxis cursor height = .ok axis) (hfactor : factor ≠ 0)
    (hback : ZoomAxis.isEffective (1 / factor) = true) :
    zoom (1 / factor) cursor width height { e with plane := zoomAlong axis factor m e.plane } = .done e := by
  have hwidth := side_ne_zero width
  have hheight := side_ne_zero height
  have hplace := PlaneView.toScreen_toModel hopen hwidth hheight hm
  rw [← PlaneView.toScreen_zoomAlong hopen axis hfactor] at hplace
  have hm' := PlaneView.toModel_toScreen (PlaneView.open_zoomAlong hopen axis hfactor m) hwidth hheight hplace
  rw [zoom_plane (e := { e with plane := zoomAlong axis factor m e.plane }) hplane hm' haxis, if_pos hback,
    PlaneView.zoomAlong_zoomAlong axis hfactor]

/-- What a zoom in the plane comes to. -/
structure ZoomedAbout (factor : α) (cursor : Pixel α) (width height : α) (e t : Engine α) : Prop where
  plane_only : ∃ w : PlaneView α, t = { e with plane := w }
  sound : PlaneView.Sound t.plane
  /-- The model point under the cursor is still there. -/
  anchored : ∃ m, toModel e.plane (max 1 width) (max 1 height) cursor = .ok m ∧
    toScreen t.plane (max 1 width) (max 1 height) m.1 m.2 = .ok cursor
  zoomed : ∀ axis, e.cursorAxis cursor height = .ok axis → 0 < factor → 1 / 1000 < |factor - 1| →
    Zoomed axis factor e.plane t.plane
  idle : ¬(0 < factor ∧ 1 / 1000 < |factor - 1|) → t = e
  undone : 1 / 1000 < |factor - 1| → 1 / 1000 < |1 / factor - 1| →
    (zoom (1 / factor) cursor width height t).state = e

theorem zoomedAbout_unchanged (hplane : e.isSpace = .ok false) (hsound : PlaneView.Sound e.plane)
    (cursor : Pixel α) (width height : α)
    (hidle : ∀ axis, e.cursorAxis cursor height = .ok axis → ¬ZoomAxis.isEffective factor = true) :
    ZoomedAbout factor cursor width height e e := by
  have hwidth := side_ne_zero width
  have hheight := side_ne_zero height
  have hm := PlaneView.toModel_eq e.plane hwidth hheight cursor
  refine ⟨⟨e.plane, rfl⟩, hsound, ⟨_, hm, PlaneView.toScreen_toModel hsound.isOpen hwidth hheight hm⟩, ?_,
    fun _ => rfl, fun hoff _ => ?_⟩
  · intro axis haxis hpos hoff
    exact absurd (ZoomAxis.isEffective_iff.mpr ⟨hpos, hoff⟩) (hidle axis haxis)
  · cases haxis : e.cursorAxis cursor height with
    | error f => rw [zoom_plane_refused hplane haxis, Step.failed]
    | ok axis =>
      -- A factor off 1 that does nothing is not positive, and neither is its inverse.
      refine zoom_plane_idle hplane (fun hback => hidle axis haxis ?_) cursor width height
      exact ZoomAxis.isEffective_iff.mpr ⟨one_div_pos.mp (ZoomAxis.isEffective_iff.mp hback).1, hoff⟩

theorem zoomedAbout_effective (hplane : e.isSpace = .ok false) (hsound : PlaneView.Sound e.plane)
    (hfactor : ZoomAxis.isEffective factor = true)
    (hm : toModel e.plane (max 1 width) (max 1 height) cursor = .ok m) {axis : ZoomAxis}
    (haxis : e.cursorAxis cursor height = .ok axis) :
    ZoomedAbout factor cursor width height e { e with plane := zoomAlong axis factor m e.plane } := by
  have hne := (PlaneView.factor_pos hfactor).ne'
  have hzoom := PlaneView.zoom_eq axis factor m e.plane
  rw [if_pos hfactor] at hzoom
  have hplace := PlaneView.toScreen_toModel hsound.isOpen (side_ne_zero width) (side_ne_zero height) hm
  refine ⟨⟨_, rfl⟩, hsound.zoom hzoom, ⟨m, hm, ?_⟩, ?_, ?_, fun _ hoff => ?_⟩
  · exact (PlaneView.toScreen_zoomAlong hsound.isOpen axis hne m _ _).trans hplace
  · intro axis' haxis' _ _
    obtain rfl := Except.ok.inj (haxis.symm.trans haxis')
    exact PlaneView.zoomAlong_zoomed axis factor m e.plane
  · exact fun hidle => absurd (ZoomAxis.isEffective_iff.mp hfactor) hidle
  · have hback := ZoomAxis.isEffective_iff.mpr ⟨one_div_pos.mpr (PlaneView.factor_pos hfactor), hoff⟩
    exact congrArg Step.state (zoom_plane_undone hplane hsound.isOpen hm haxis hne hback)

/-- Wherever the cursor is, the zoom is about the model point under it. It comes through if the settings name an
axis and a width of the margins, and changes nothing if they do not. -/
theorem zoom_about_cursor (hplane : e.isSpace = .ok false) (hsound : PlaneView.Sound e.plane) (factor : α)
    (cursor : Pixel α) (width height : α) :
    ZoomedAbout factor cursor width height e (zoom factor cursor width height e).state ∧
      ((zoom factor cursor width height e).fault = none ↔ Returns (e.cursorAxis cursor height)) := by
  obtain ⟨m, hm⟩ : ∃ m, toModel e.plane (max 1 width) (max 1 height) cursor = .ok m :=
    ⟨_, PlaneView.toModel_eq e.plane (side_ne_zero width) (side_ne_zero height) cursor⟩
  cases haxis : e.cursorAxis cursor height with
  | error f =>
    rw [zoom_plane_refused hplane haxis]
    refine ⟨zoomedAbout_unchanged hplane hsound cursor width height fun axis h => ?_, nofun, nofun⟩
    cases haxis.symm.trans h
  | ok axis =>
    rw [zoom_plane hplane hm haxis]
    refine ⟨?_, fun _ => .ok axis, fun _ => rfl⟩
    by_cases hfactor : ZoomAxis.isEffective factor = true
    · rw [if_pos hfactor]
      exact zoomedAbout_effective hplane hsound hfactor hm haxis
    · rw [if_neg hfactor]
      exact zoomedAbout_unchanged hplane hsound cursor width height fun _ _ => hfactor

end

/-- A zoom about a place off the margins, where it acts on both axes. -/
theorem zoom_about_cursor_flat :
    let t := (zoom 2 ⟨150, 20⟩ 200 100 flat).state
    flat.isSpace = .ok false ∧ PlaneView.Sound flat.plane ∧ ZoomedAbout 2 ⟨150, 20⟩ 200 100 flat t ∧
      (zoom 2 ⟨150, 20⟩ 200 100 flat).fault = none ∧ t.plane = ⟨-5 / 4, 15 / 4, -1, 4⟩ := by
  obtain ⟨hzoomed, hfault⟩ := zoom_about_cursor flat_isSpace flat_sound 2 ⟨150, 20⟩ 200 100
  exact ⟨flat_isSpace, flat_sound, hzoomed, hfault.mpr ⟨.free, by decide +kernel⟩, by decide +kernel⟩

end FieldPlot.Engine
