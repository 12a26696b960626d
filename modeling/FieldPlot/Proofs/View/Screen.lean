import FieldPlot.Proofs.View.Gestures

/-! A window and the canvas that it fills. Each place of the canvas shows one model point; dragging moves all
points alike, and a zoom leaves the point it is about where it is. -/

namespace FieldPlot.View

namespace ZoomAxis

/-- Whether a zoom in the plane changes the abscissae. -/
def alongX : ZoomAxis → Bool
  | free | x => true
  | y | z => false

/-- Whether a zoom in the plane changes the ordinates. Those are its value axis, so z means them as well. -/
def alongY : ZoomAxis → Bool
  | free | y | z => true
  | x => false

theorem isEffective_iff {α : Type} [LawfulScalar α] {factor : α} :
    isEffective factor = true ↔ 0 < factor ∧ 1 / 1000 < |factor - 1| := by
  have hslack : @OfScientific.ofScientific α Scalar.toOfScientific 1 true 3 = 1 / 1000 := by
    rw [ExactScalar.scientific_eq]
    norm_num
  rw [isEffective, LawfulScalar.abs_eq, Scalar.literal_zero, Scalar.literal_one, hslack]
  simp

end ZoomAxis

namespace PlaneView

variable {α : Type} [ExactScalar α] {v w : PlaneView α} {width height factor : α} {p : Pixel α} {m : α × α}

/-! ### Places and points -/

/-- A window that is not empty; its ends may be in either order. -/
structure Open (v : PlaneView α) : Prop where
  spanX : v.spanX ≠ 0
  spanY : v.spanY ≠ 0

theorem Sound.isOpen (h : v.Sound) : v.Open :=
  ⟨h.spanX_pos.ne', h.spanY_pos.ne'⟩

theorem toScreen_eq (h : v.Open) (width height x y : α) : toScreen v width height x y =
    .ok ⟨(x - v.xMin) / v.spanX * width, height - (y - v.yMin) / v.spanY * height⟩ := by
  rw [toScreen, Scalar.divide_of_ne_zero h.spanX, Scalar.divide_of_ne_zero h.spanY]
  rfl

theorem toModel_eq (v : PlaneView α) (hwidth : width ≠ 0) (hheight : height ≠ 0) (p : Pixel α) :
    toModel v width height p = .ok (v.xMin + p.x / width * v.spanX, v.yMax - p.y / height * v.spanY) := by
  rw [toModel, Scalar.divide_of_ne_zero hwidth, Scalar.divide_of_ne_zero hheight]
  rfl

/-- The one formula counts from the upper end of the window, the other from the lower one. -/
theorem toScreen_toModel (h : v.Open) (hwidth : width ≠ 0) (hheight : height ≠ 0)
    (hm : toModel v width height p = .ok m) : toScreen v width height m.1 m.2 = .ok p := by
  rw [toModel_eq v hwidth hheight] at hm
  obtain rfl := Except.ok.inj hm
  have hx := h.spanX
  have hy := h.spanY
  have hrow : (v.yMax - p.y / height * v.spanY - v.yMin) / v.spanY = 1 - p.y / height := by
    have hspan : v.yMax - p.y / height * v.spanY - v.yMin = (1 - p.y / height) * v.spanY := by
      unfold spanY
      ring
    rw [hspan, mul_div_cancel_right₀ _ hy]
  rw [toScreen_eq h, hrow, add_sub_cancel_left, mul_div_cancel_right₀ _ hx, div_mul_cancel₀ _ hwidth,
    sub_mul, one_mul, div_mul_cancel₀ _ hheight, sub_sub_cancel]

theorem toModel_toScreen (h : v.Open) (hwidth : width ≠ 0) (hheight : height ≠ 0)
    (hp : toScreen v width height m.1 m.2 = .ok p) : toModel v width height p = .ok m := by
  rw [toScreen_eq h] at hp
  obtain rfl := Except.ok.inj hp
  have hx : v.xMin + (m.1 - v.xMin) / v.spanX * width / width * v.spanX = m.1 := by
    rw [mul_div_cancel_right₀ _ hwidth, div_mul_cancel₀ _ h.spanX, add_sub_cancel]
  have hy : v.yMax - (height - (m.2 - v.yMin) / v.spanY * height) / height * v.spanY = m.2 := by
    rw [sub_div, div_self hheight, mul_div_cancel_right₀ _ hheight, sub_mul, one_mul, div_mul_cancel₀ _ h.spanY]
    unfold spanY
    ring
  rw [toModel_eq v hwidth hheight, hx, hy]

/-! ### Dragging -/

theorem panBy_eq (v : PlaneView α) (hwidth : width ≠ 0) (hheight : height ≠ 0) (dx dy : α) :
    panBy dx dy width height v = .ok
      ⟨v.xMin + -dx * v.spanX / width, v.xMax + -dx * v.spanX / width,
        v.yMin + dy * v.spanY / height, v.yMax + dy * v.spanY / height⟩ := by
  rw [panBy, Scalar.divide_of_ne_zero hwidth, Scalar.divide_of_ne_zero hheight]
  rfl

theorem panBy_spans {dx dy : α} (hw : panBy dx dy width height v = .ok w) :
    w.spanX = v.spanX ∧ w.spanY = v.spanY := by
  obtain ⟨shiftX, -, hw⟩ := bind_eq_ok.mp hw
  obtain ⟨shiftY, -, hw⟩ := bind_eq_ok.mp hw
  obtain rfl := pure_eq_ok.mp hw
  exact ⟨add_sub_add_right_eq_sub _ _ _, add_sub_add_right_eq_sub _ _ _⟩

theorem panBy_zero (v : PlaneView α) (hwidth : width ≠ 0) (hheight : height ≠ 0) :
    panBy 0 0 width height v = .ok v := by
  rw [panBy_eq v hwidth hheight]
  simp

theorem panBy_panBy (hwidth : width ≠ 0) (hheight : height ≠ 0) {dx dy : α}
    (hw : panBy dx dy width height v = .ok w) (dx' dy' : α) :
    panBy dx' dy' width height w = panBy (dx + dx') (dy + dy') width height v := by
  obtain ⟨hspanX, hspanY⟩ := panBy_spans hw
  rw [panBy_eq v hwidth hheight] at hw
  obtain rfl := Except.ok.inj hw
  rw [panBy_eq _ hwidth hheight, panBy_eq v hwidth hheight, hspanX, hspanY]
  have hx (a : α) : a + -dx * v.spanX / width + -dx' * v.spanX / width = a + -(dx + dx') * v.spanX / width := by
    ring
  have hy (a : α) : a + dy * v.spanY / height + dy' * v.spanY / height = a + (dy + dy') * v.spanY / height := by
    ring
  rw [hx, hx, hy, hy]

/-- The content goes with the cursor: what a window moves by, measured in pixels, is what its points move
by, the other way round. -/
theorem toScreen_panBy (h : v.Open) (hwidth : width ≠ 0) (hheight : height ≠ 0) {dx dy : α}
    (hw : panBy dx dy width height v = .ok w) {x y : α} (hp : toScreen v width height x y = .ok p) :
    toScreen w width height x y = .ok ⟨p.x + dx, p.y + dy⟩ := by
  obtain ⟨hspanX, hspanY⟩ := panBy_spans hw
  have hopen : w.Open := ⟨hspanX ▸ h.spanX, hspanY ▸ h.spanY⟩
  rw [toScreen_eq h] at hp
  obtain rfl := Except.ok.inj hp
  rw [panBy_eq v hwidth hheight] at hw
  rw [toScreen_eq hopen, hspanX, hspanY]
  obtain rfl := Except.ok.inj hw
  have hx := h.spanX
  have hy := h.spanY
  have hcolumn : (x - (v.xMin + -dx * v.spanX / width)) / v.spanX * width =
      (x - v.xMin) / v.spanX * width + dx := by
    field_simp
    ring
  have hrow : height - (y - (v.yMin + dy * v.spanY / height)) / v.spanY * height =
      height - (y - v.yMin) / v.spanY * height + dy := by
    field_simp
    ring
  rw [hcolumn, hrow]

/-! ### Zooming -/

/-- A zoom about a model point along the axes that `axis` stands for. -/
def zoomAlong (axis : ZoomAxis) (factor : α) (m : α × α) (v : PlaneView α) : PlaneView α :=
  match axis with
  | .free => (v.zoomX factor m.1).zoomY factor m.2
  | .x => v.zoomX factor m.1
  | .y | .z => v.zoomY factor m.2

theorem zoom_eq (axis : ZoomAxis) (factor : α) (m : α × α) (v : PlaneView α) :
    zoom factor (.ok axis) (some m) v =
      .ok (if ZoomAxis.isEffective factor then zoomAlong axis factor m v else v) := by
  unfold zoom
  split
  · cases axis <;> rfl
  · rfl

/-- What becomes of a window that is zoomed by a factor. -/
structure Zoomed (axis : ZoomAxis) (factor : α) (v w : PlaneView α) : Prop where
  alongX : axis.alongX = true → w.spanX = v.spanX / factor
  alongY : axis.alongY = true → w.spanY = v.spanY / factor
  besideX : axis.alongX = false → w.xMin = v.xMin ∧ w.xMax = v.xMax
  besideY : axis.alongY = false → w.yMin = v.yMin ∧ w.yMax = v.yMax

theorem spanX_zoomX (factor focus : α) (v : PlaneView α) : (v.zoomX factor focus).spanX = v.spanX / factor := by
  unfold spanX zoomX
  ring

theorem spanY_zoomY (factor focus : α) (v : PlaneView α) : (v.zoomY factor focus).spanY = v.spanY / factor := by
  unfold spanY zoomY
  ring

theorem zoomAlong_zoomed (axis : ZoomAxis) (factor : α) (m : α × α) (v : PlaneView α) :
    Zoomed axis factor v (zoomAlong axis factor m v) := by
  cases axis with
  | free => exact ⟨fun _ => spanX_zoomX _ _ v, fun _ => spanY_zoomY _ _ v, nofun, nofun⟩
  | x => exact ⟨fun _ => spanX_zoomX _ _ v, nofun, nofun, fun _ => ⟨rfl, rfl⟩⟩
  | y => exact ⟨nofun, fun _ => spanY_zoomY _ _ v, fun _ => ⟨rfl, rfl⟩, nofun⟩
  | z => exact ⟨nofun, fun _ => spanY_zoomY _ _ v, fun _ => ⟨rfl, rfl⟩, nofun⟩

theorem open_zoomAlong (h : v.Open) (axis : ZoomAxis) (hfactor : factor ≠ 0) (m : α × α) :
    (zoomAlong axis factor m v).Open := by
  have hzoomed := zoomAlong_zoomed axis factor m v
  constructor
  · cases haxis : axis.alongX with
    | true => exact hzoomed.alongX haxis ▸ div_ne_zero h.spanX hfactor
    | false => rw [spanX, (hzoomed.besideX haxis).1, (hzoomed.besideX haxis).2]; exact h.spanX
  · cases haxis : axis.alongY with
    | true => exact hzoomed.alongY haxis ▸ div_ne_zero h.spanY hfactor
    | false => rw [spanY, (hzoomed.besideY haxis).1, (hzoomed.besideY haxis).2]; exact h.spanY

/-- The point that a zoom is about cuts the window in the same proportion as before. -/
theorem column_zoomX (hfactor : factor ≠ 0) (focus : α) (v : PlaneView α) :
    (focus - (v.zoomX factor focus).xMin) / (v.zoomX factor focus).spanX = (focus - v.xMin) / v.spanX := by
  rw [spanX_zoomX, zoomX, sub_sub_cancel, div_div_div_cancel_right₀ hfactor]

theorem row_zoomY (hfactor : factor ≠ 0) (focus : α) (v : PlaneView α) :
    (focus - (v.zoomY factor focus).yMin) / (v.zoomY factor focus).spanY = (focus - v.yMin) / v.spanY := by
  rw [spanY_zoomY, zoomY, sub_sub_cancel, div_div_div_cancel_right₀ hfactor]

theorem toScreen_zoomAlong (h : v.Open) (axis : ZoomAxis) (hfactor : factor ≠ 0) (m : α × α)
    (width height : α) : toScreen (zoomAlong axis factor m v) width height m.1 m.2 =
      toScreen v width height m.1 m.2 := by
  have hcolumn := column_zoomX hfactor m.1 v
  have hrow := row_zoomY hfactor m.2 v
  rw [toScreen_eq (open_zoomAlong h axis hfactor m), toScreen_eq h, ← hcolumn, ← hrow]
  cases axis with
  | free => rfl
  | x => rw [hrow]; rfl
  | y => rw [hcolumn]; rfl
  | z => rw [hcolumn]; rfl

theorem lower_restored (hfactor : factor ≠ 0) (focus lo : α) :
    focus - (focus - (focus - (focus - lo) / factor)) / (1 / factor) = lo := by
  field_simp
  ring

theorem upper_restored (hfactor : factor ≠ 0) (focus hi : α) :
    focus + (focus + (hi - focus) / factor - focus) / (1 / factor) = hi := by
  field_simp
  ring

theorem zoomX_zoomX (hfactor : factor ≠ 0) (focus : α) (v : PlaneView α) :
    (v.zoomX factor focus).zoomX (1 / factor) focus = v := by
  unfold zoomX
  rw [lower_restored hfactor, upper_restored hfactor]

theorem zoomY_zoomY (hfactor : factor ≠ 0) (focus : α) (v : PlaneView α) :
    (v.zoomY factor focus).zoomY (1 / factor) focus = v := by
  unfold zoomY
  rw [lower_restored hfactor, upper_restored hfactor]

theorem zoomAlong_zoomAlong (axis : ZoomAxis) (hfactor : factor ≠ 0) (m : α × α) (v : PlaneView α) :
    zoomAlong axis (1 / factor) m (zoomAlong axis factor m v) = v := by
  cases axis with
  | free =>
    have hswap : ((v.zoomX factor m.1).zoomY factor m.2).zoomX (1 / factor) m.1 =
      ((v.zoomX factor m.1).zoomX (1 / factor) m.1).zoomY factor m.2 := rfl
    rw [zoomAlong, zoomAlong, hswap, zoomX_zoomX hfactor, zoomY_zoomY hfactor]
  | x => exact zoomX_zoomX hfactor m.1 v
  | y => exact zoomY_zoomY hfactor m.2 v
  | z => exact zoomY_zoomY hfactor m.2 v

end PlaneView

end FieldPlot.View
