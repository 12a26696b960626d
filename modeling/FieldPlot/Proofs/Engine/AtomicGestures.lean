import FieldPlot.Proofs.Engine.CurrentRequest
import FieldPlot.Proofs.Request.Acceptance
import FieldPlot.Proofs.Sampling.Totality
import FieldPlot.Scalar.Double
import FieldPlot.Expression.Double

/-! Gestures change the engine at once or not at all. By the time that a zoom in space asks the request for a value
range, the floor is zoomed; but a function that is plotted has stood its trial, and as a gesture may nest as deeply as a
trial, asking does not fail. -/

namespace FieldPlot

open Expression (Arithmetic Formula)
open Settings (Table)

/-- Either the step comes through or it changes nothing. -/
def Step.AllOrNothing {σ : Type} (s : σ) (step : Step σ) : Prop :=
  step.fault = none ∨ step.state = s

namespace Step.AllOrNothing

variable {σ τ : Type} {s : σ}

theorem done (s t : σ) : AllOrNothing s (.done t) :=
  .inl rfl

theorem failed (s : σ) (f : Fault) : AllOrNothing s (.failed s f) :=
  .inr rfl

theorem atomic (s : σ) (next : Except Fault σ) : AllOrNothing s (.atomic s next) := by
  cases next with
  | error f => exact failed s f
  | ok t => exact done s t

theorem map {step : Step σ} (h : AllOrNothing s step) (f : σ → τ) : AllOrNothing (f s) (step.map f) :=
  h.imp_right (congrArg f)

end Step.AllOrNothing

section

variable {α : Type} [Scalar α]

theorem View.SpaceView.zoom_allOrNothing {autoZ : α → α → Except Fault (Option α)}
    (hautoZ : ∀ x y, Returns (autoZ x y)) (factor : α) (axis : Except Fault ZoomAxis) (v : SpaceView α) :
    (v.zoom factor axis autoZ).AllOrNothing v := by
  unfold zoom
  split
  · split
    · exact .failed v _
    · exact .done v _
    · next axis _ =>
      -- The floor is zoomed by now, and only the value range is left to fail.
      obtain ⟨range, hrange⟩ := hautoZ (v.zoomFloor factor axis).rangeX (v.zoomFloor factor axis).rangeY
      simp only [hrange]
      cases range with
      | some range => exact .done v _
      | none => exact .done v _
  · exact .done v _

/-- What the floor has become by the time that its value range fails, it stays. -/
example : ((View.SpaceView.initial : View.SpaceView ℚ).zoom 2 (.ok .x) fun _ _ => .error .nestedTooDeep).state.rangeX =
    5 / 2 := by
  decide +kernel

variable [CountingScalar α] [Arithmetic α]

theorem Request.autoZ_returns {r : Request} (h : r.field = none → ∀ p : Point α, r.Evaluates p) (x y : α) :
    Returns (r.autoZ r.samples x y) := by
  unfold autoZ
  split
  · next hscalar =>
    rw [Bool.and_eq_true, Option.isNone_iff_eq_none] at hscalar
    have hsample : ∀ p : Point α, Returns (r.samples.scalar p) := by
      intro p
      have hvalue := h hscalar.1 p
      rw [Evaluates, hscalar.1] at hvalue
      obtain ⟨value, hvalue⟩ := hvalue
      exact ⟨Scalar.finite? value, congrArg (Except.map Scalar.finite?) hvalue⟩
    exact Sampling.autoRange_unfailing hsample x y (by decide) (by decide)
  · exact .ok none

end

namespace Engine

variable {α : Type} [Scalar α] {e : Engine α} {call : Call α}

theorem gesture_allOrNothing {inSpace inPlane : Step (Engine α)} (hspace : inSpace.AllOrNothing e)
    (hplane : inPlane.AllOrNothing e) : (e.gesture inSpace inPlane).AllOrNothing e := by
  unfold gesture
  split
  · exact hspace
  · exact hplane
  · exact .failed e _

def Call.isGesture : Call α → Bool
  | rotate _ _ | pan _ _ _ _ | zoom _ _ _ _ | resetView => true
  | update _ | frame _ _ => false

variable [Arithmetic α]

/-- If a function is plotted, it has a value everywhere. -/
def Evaluates (e : Engine α) : Prop :=
  ∀ r, e.request = some r → r.field = none → ∀ p : Point α, r.Evaluates p

theorem Current.evaluates (h : Current e) : Evaluates e := by
  intro r hr hfunction p
  cases h with
  | accepted _ _ hasks hsubmitted hrequest =>
    obtain rfl := Option.some.inj (hrequest.symm.trans hr)
    exact Request.evaluates_of_strict hasks.strict hsubmitted hfunction p
  | refused _ _ _ _ hrequest =>
    rw [hrequest] at hr
    cases hr

theorem run_evaluates (calls : List (Call α)) (h : Evaluates e) : Evaluates (run e calls) := by
  refine run_preserves Current.evaluates (fun hrequest _ hevaluates => ?_) calls h
  rwa [Evaluates, hrequest]

variable [CountingScalar α]

theorem autoZ_returns (h : Evaluates e) (x y : α) : Returns (e.autoZ x y) := by
  unfold autoZ
  split
  · next r hr => exact Request.autoZ_returns (h r hr) x y
  · exact .ok none

theorem zoomSpace_allOrNothing (h : Evaluates e) (factor : α) : (e.zoomSpace factor).AllOrNothing e := by
  unfold zoomSpace
  split
  · exact .failed e _
  · next axis _ =>
    have hzoom := View.SpaceView.zoom_allOrNothing (autoZ_returns h) factor (View.ZoomAxis.ofValue axis) e.space
    exact hzoom.map fun space => { e with space }

theorem perform_allOrNothing (hgesture : call.isGesture = true) (h : Evaluates e) :
    (call.perform e).AllOrNothing e := by
  cases call with
  | update payload => cases hgesture
  | rotate dx dy => exact gesture_allOrNothing (.done e _) (.done e _)
  | pan dx dy width height => exact gesture_allOrNothing (.done e _) (.atomic e _)
  | zoom factor cursor width height =>
    exact gesture_allOrNothing (zoomSpace_allOrNothing h factor) (.atomic e _)
  | resetView => exact gesture_allOrNothing (.done e _) (.done e _)
  | frame width height => cases hgesture

/-- After any calls, refused updates among them, a gesture comes through or leaves the whole engine as it was. -/
theorem gesture_all_or_nothing (calls : List (Call α)) (call : Call α) (hgesture : call.isGesture = true) :
    (call.perform (run initial.state calls)).fault = none ∨
      (call.perform (run initial.state calls)).state = run initial.state calls :=
  perform_allOrNothing hgesture (run_evaluates calls initial_current.evaluates)

/-- An update is refused for its notation, but not before its zoom axis is in the settings. No axis has that name,
so that the next zoom fails. -/
theorem gesture_all_or_nothing_diagonal :
    let payload : Table Float := [("view3d", .table [("zoomAxis", .text "diagonal")]),
      ("field", .table [("unitConvention", .text "polar")])]
    let e := run (initial : Step (Engine Float)).state [.update (.table payload)]
    let zoomed := (Call.zoom 2 ⟨100, 100⟩ 200 200).perform e
    (setParams (.table payload) (initial : Step (Engine Float)).state).fault =
        some (.unknownConvention "'polar'") ∧
      zoomed.fault = some (.unknownChoice .zoomAxis "'diagonal'") ∧ zoomed.state = e := by
  intro payload e zoomed
  have hfault : zoomed.fault = some (.unknownChoice .zoomAxis "'diagonal'") := by decide +kernel
  have hzoomed : zoomed.fault = none ∨ zoomed.state = e :=
    gesture_all_or_nothing [.update (.table payload)] (.zoom 2 ⟨100, 100⟩ 200 200) rfl
  refine ⟨by decide +kernel, hfault, hzoomed.resolve_left ?_⟩
  rw [hfault]
  exact Option.some_ne_none _

end Engine

end FieldPlot
