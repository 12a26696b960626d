import FieldPlot.Proofs.Scalar.Real
import FieldPlot.Proofs.Scene.PlaneTotality
import FieldPlot.Proofs.Scene.SpaceTotality
import FieldPlot.Scene.Build

/-! Building a scene meets no division by zero, in whatever view gestures have led to. A division that could
is `Scalar.divide`, which faults on a zero, so that a scene without a fault has met none; the projection,
which goes on with what a machine makes of a zero, is the one exception. -/

namespace FieldPlot

open Expression (Arithmetic Formula Parsed)
open View (SpaceView PlaneView)

theorem Expression.Formula.sample_returns {α : Type} [Scalar α] [Arithmetic α] {s : List Char}
    (h : (Parsed.ofChars? s).isSome = true) (p : Point α) : Returns ((Formula.ofChars s).sample p) := by
  obtain ⟨e, he⟩ := Option.isSome_iff_exists.mp h
  rw [sample, value, ofChars, he]
  exact .ok _

/-- Of exact numbers every value is finite. -/
theorem Expression.Formula.exists_sample {α : Type} [LawfulScalar α] [Arithmetic α] {s : List Char}
    (h : (Parsed.ofChars? s).isSome = true) (p : Point α) : ∃ a, (Formula.ofChars s).sample p = .ok (some a) := by
  obtain ⟨e, he⟩ := Option.isSome_iff_exists.mp h
  have hvalue : (Formula.ofChars s : Formula α).value p = .ok (e.value p) := by
    rw [value, ofChars, he]
    rfl
  refine ⟨e.value p, ?_⟩
  rw [sample, hvalue]
  exact congrArg Except.ok (if_pos (LawfulScalar.isFinite_eq _))

theorem Request.autoZ_pos {α : Type} [LawfulScalar α] {r : Request} {samples : Samples α} {x y range : α}
    (h : r.autoZ samples x y = .ok (some range)) : 0 < range := by
  unfold autoZ at h
  split at h
  · exact Sampling.autoRange_pos h
  · cases h

namespace Scene

section

variable {α : Type} [ExactScalar α]

/-- Views that gestures lead to from those a plot starts with. -/
def AnyView.Reachable : AnyView α → Prop
  | .space v => v.Reachable
  | .plane v => PlaneView.Reachable v

def AnyView.Sound : AnyView α → Prop
  | .space v => v.Sound
  | .plane v => PlaneView.Sound v

theorem AnyView.Reachable.sound {view : AnyView α} (h : view.Reachable) : view.Sound := by
  cases view with
  | space v => exact SpaceView.Reachable.sound h
  | plane v => exact PlaneView.Reachable.sound h

end

variable {α : Type} [LawfulScalar α] {request : Request} {samples : Request.Samples α} {view : AnyView α}

theorem returns_of_sound (hsamples : Evaluates request samples) (hview : view.Sound) (width height : α) :
    Returns (build request samples view width height .null .null) := by
  have hcanvas := Canvas.ofSize_sound width height
  cases view with
  | space v =>
    exact SpaceScene.build_returns ⟨hsamples, hview, Palette.default_sound, Detail.default_sound, hcanvas⟩
  | plane v =>
    exact PlaneScene.build_returns ⟨hsamples, hview, Palette.default_sound, Detail.default_sound, hcanvas⟩

/-- A plot with the appearance and the sampling that it starts with is built without a fault for every
request, every view that gestures lead to and every canvas, as long as evaluating the function or the
field has a result. -/
theorem build_without_fault (hsamples : Evaluates request samples) (hview : view.Reachable)
    (width height : α) : ∃ items, build request samples view width height .null .null = .ok items :=
  returns_of_sound hsamples hview.sound width height

/-- The request for the saddle `x * y`. -/
def saddle : Request :=
  ⟨['x', '*', 'y'], none, true, .function, .none, true, true, []⟩

theorem saddle_evaluates {α : Type} [Scalar α] [Arithmetic α] :
    Evaluates saddle (saddle.samples : Request.Samples α) := by
  have hread : (Parsed.ofChars? saddle.expression).isSome = true := by decide +kernel
  exact ⟨fun _ => Formula.sample_returns hread, fun h => nomatch h⟩

/-- A saddle that is seen after zooming in by a factor of two. -/
theorem build_without_fault_zoomed : ∃ items, build saddle (saddle.samples : Request.Samples ℝ)
    (.space (SpaceView.initial.zoom 2 (.ok .free) (saddle.autoZ saddle.samples)).state) 640 480 .null .null =
      .ok items := by
  refine build_without_fault saddle_evaluates ?_ 640 480
  exact Relation.ReflTransGen.single (.zoom _ _ _ _ fun _ _ _ => Request.autoZ_pos)

end Scene

end FieldPlot
