import FieldPlot.Proofs.Scene.Faultless
import FieldPlot.Proofs.Scene.PlaneDrawing
import FieldPlot.Proofs.Scene.SpaceDrawing

/-! No segment leaves the canvas. Whatever a scene draws has been clipped, and what clipping leaves lies in
the rectangle of the canvas, wherever the ends of the segment were. -/

namespace FieldPlot.Scene

section

variable {α : Type} [ExactScalar α]

def WithinCanvas (width height : α) (p : Pixel α) : Prop :=
  (0 ≤ p.x ∧ p.x ≤ max 1 width) ∧ (0 ≤ p.y ∧ p.y ≤ max 1 height)

theorem ofSize_shows (width height : α) : (Canvas.ofSize width height).Shows (WithinCanvas width height) := by
  have hcovers {p : Pixel α} (hp : (Canvas.ofSize width height).rect.Covers p) :
      WithinCanvas width height p := by
    simpa only [WithinCanvas, Canvas.rect, Canvas.ofSize, Rect.ofSize, Scalar.larger_eq_max, Scalar.literal_zero,
      Scalar.literal_one] using Rect.covers_iff_coordinates.mp hp
  intro a b p q hclip
  obtain ⟨hp, hq⟩ := Rect.clip_covers hclip
  exact ⟨hcovers hp, hcovers hq⟩

theorem SpaceScene.build_shown {s : SpaceScene α} {shown : Pixel α → Prop} (h : s.canvas.Shows shown) :
    Emits (Shown shown) s.build := by
  refine .andThen ((frame_framed h).mono fun _ => Drawn.toShown) fun _ hframe => ?_
  exact .andThen ((content_drawn h).mono fun _ => Drawn.toShown) fun _ hcontent => .append hframe hcontent

/-- Every point of every line and polyline of a plot lies on the canvas, which is at least one pixel wide
and high, whatever is plotted and however it is seen. -/
theorem linear_within_canvas {request : Request} {samples : Request.Samples α} {view : AnyView α}
    {width height : α} {appearance sampling : Settings.Value α} {items : List (Item α)}
    (h : build request samples view width height appearance sampling = .ok items) :
    ∀ item ∈ items, item.shape.isLinear = true → ∀ p ∈ item.shape.points,
      (0 ≤ p.x ∧ p.x ≤ max 1 width) ∧ (0 ≤ p.y ∧ p.y ≤ max 1 height) := by
  obtain ⟨palette, -, h⟩ := bind_eq_ok.mp h
  obtain ⟨detail, -, h⟩ := bind_eq_ok.mp h
  have hshows := ofSize_shows width height
  cases view with
  | space v =>
    let s : SpaceScene α := ⟨request, samples, v, palette, detail, .ofSize width height⟩
    have hitems : Emits (Shown (WithinCanvas width height)) s.build := SpaceScene.build_shown hshows
    exact fun item hitem => (hitems items h item hitem).shown
  | plane v =>
    let s : PlaneScene α := ⟨request, samples, v, palette, detail, .ofSize width height⟩
    have hitems : Emits (Shown (WithinCanvas width height)) s.build := PlaneScene.build_shown hshows
    exact fun item hitem => (hitems items h item hitem).shown

end

theorem linear_within_canvas_saddle : ∃ items : List (Item ℚ),
    build saddle saddle.samples (.plane View.PlaneView.initial) 640 480 .null .null = .ok items ∧
      ∀ item ∈ items, item.shape.isLinear = true → ∀ p ∈ item.shape.points,
        (0 ≤ p.x ∧ p.x ≤ max 1 640) ∧ (0 ≤ p.y ∧ p.y ≤ max 1 480) := by
  have hview : (AnyView.plane View.PlaneView.initial : AnyView ℚ).Sound := View.PlaneView.initial_sound
  obtain ⟨items, hitems⟩ := returns_of_sound saddle_evaluates hview 640 480
  exact ⟨items, hitems, linear_within_canvas hitems⟩

end FieldPlot.Scene
