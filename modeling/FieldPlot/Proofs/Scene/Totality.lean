import FieldPlot.Proofs.Colour.Gradient
import FieldPlot.Proofs.Geometry.Visible
import FieldPlot.Request
import FieldPlot.Scene.Canvas
import FieldPlot.Scene.Detail

/-! What emitters rely on: a canvas that is not turned inside out, a palette with gradients, and positive
counts. The appearance and the sampling that a plot starts with are such. -/

namespace FieldPlot.Scene

open Colour (Stop)

variable {α : Type}

namespace Canvas

structure Sound [ExactScalar α] (c : Canvas α) : Prop where
  width : 0 ≤ c.width
  height : 0 ≤ c.height

theorem ofSize_sound [ExactScalar α] (width height : α) : (ofSize width height).Sound :=
  ⟨(Scalar.larger_pos (Scalar.literal_pos 1 (by decide)) width).le,
    (Scalar.larger_pos (Scalar.literal_pos 1 (by decide)) height).le⟩

section

variable [ExactScalar α] {c : Canvas α}

theorem visible_returns (h : c.Sound) (a b : Option (Pixel α)) : Returns (c.visible? a b) := by
  unfold visible?
  split
  · refine Rect.clip_returns ?_ ?_ _ _
    · exact Scalar.literal_zero.le.trans h.width
    · exact Scalar.literal_zero.le.trans h.height
  · exact .ok none

theorem line_returns (h : c.Sound) (stroke : Stroke α) (role : Role) (depth : α) (a b : Option (Pixel α)) :
    Returns (c.line stroke role depth a b) := by
  refine (visible_returns h a b).bind fun part _ => ?_
  split
  · exact .ok _
  · exact .ok []

theorem path_returns (h : c.Sound) (stroke : Stroke α) (role : Role) (points : List (Option (Pixel α))) :
    Returns (c.path stroke role points) :=
  .bind (.mapM fun _ _ => visible_returns h _ _) fun _ _ => .ok _

end

variable [LawfulScalar α] {c : Canvas α} {stroke : Stroke α} {role : Role} {depth : α} {p q : Pixel α}

theorem covers_iff : c.rect.Covers p ↔ (0 ≤ p.x ∧ p.x ≤ c.width) ∧ 0 ≤ p.y ∧ p.y ≤ c.height := by
  rw [Rect.covers_iff_coordinates, rect, Rect.ofSize, Scalar.literal_zero]

theorem line_of_covers (hp : c.rect.Covers p) (hq : c.rect.Covers q) :
    c.line stroke role depth (some p) (some q) = .ok [⟨.line p q, stroke, role, depth⟩] := by
  rw [line, visible?, Rect.clip_of_covers hp hq]
  rfl

theorem line_of_beyond (hc : c.Sound) (side : Side) (hp : 0 < c.rect.gap side p) (hq : 0 < c.rect.gap side q) :
    c.line stroke role depth (some p) (some q) = .ok [] := by
  have hx : c.rect.left ≤ c.rect.right := Scalar.literal_zero.trans_le hc.width
  have hy : c.rect.top ≤ c.rect.bottom := Scalar.literal_zero.trans_le hc.height
  rw [line, visible?, Rect.clip_of_beyond hx hy hp hq]
  rfl

theorem barb_returns (h : c.Sound) (colour : List Char) (depth : α) (tip : Pixel α) (length angle : α) :
    Returns (c.barb colour depth tip length angle) :=
  (Scalar.turn_returns angle).bind fun _ _ => line_returns h _ _ _ _ _

theorem arrowHead_returns (h : c.Sound) (colour : List Char) (depth : α) (tip : Pixel α)
    (length angle : α) : Returns (c.arrowHead colour depth tip length angle) :=
  (barb_returns h _ _ _ _ _).bind fun _ _ => (barb_returns h _ _ _ _ _).bind fun _ _ => .ok _

end Canvas

namespace Palette

/-- A palette of which everything can be used. -/
structure Sound (p : Palette α) : Prop where
  jetStops : ∃ stops, p.jetStops = .ok stops ∧ stops ≠ []
  surfaceStops : ∃ stops, p.surfaceStops = .ok stops ∧ stops ≠ []
  surfaceOpacity : Returns p.surfaceOpacity
  jetSurfaceOpacity : Returns p.jetSurfaceOpacity
  heatmapOpacity : Returns p.heatmapOpacity

variable [LawfulScalar α] {p : Palette α}

theorem gradient_returns {gradient : Except Fault (List (Stop α))}
    (h : ∃ stops, gradient = .ok stops ∧ stops ≠ []) (t : α) :
    Returns (gradient >>= fun stops => Colour.colourAt stops t) :=
  .bind_of_exists h fun _ hstops => Colour.colourAt_returns hstops t

theorem jet_returns (h : p.Sound) (t : α) : Returns (p.jet t) :=
  gradient_returns h.jetStops t

theorem surface_returns (h : p.Sound) (t : α) : Returns (p.surface t) :=
  gradient_returns h.surfaceStops t

theorem stops_returns {s : List Char} {default : String} (hs : Colour.writtenStops s ≠ [])
    (hdefault : Colour.writtenStops default.toList ≠ []) :
    ∃ written : List (Stop α), stops s default = .ok written ∧ written ≠ [] := by
  unfold stops
  split
  · exact Colour.readStops_returns hdefault
  · exact Colour.readStops_returns hs

theorem default_sound : (ofTable Settings.appearanceDefaults : Palette α).Sound := by
  have hjet : Colour.writtenStops Settings.jetColours.toList ≠ [] := by decide
  have hsurface : Colour.writtenStops Settings.surfaceColours.toList ≠ [] := by decide
  exact ⟨stops_returns hjet hjet, stops_returns hsurface hsurface, .ok _, .ok _, .ok _⟩

end Palette

theorem normalise_returns [LawfulScalar α] (value lo hi : α) : Returns (normalise value lo hi) := by
  unfold normalise
  split
  · exact .ok _
  · next hne =>
    rw [ExactScalar.beq_eq, decide_eq_true_iff] at hne
    exact (Scalar.divide_returns _ (sub_ne_zero.mpr hne)).bind fun _ _ => .ok _

namespace Detail

/-- A count of samples that there are. -/
abbrev Positive (count : Except Fault ℤ) : Prop :=
  ∃ n, count = .ok n ∧ 0 < n

structure Sound (d : Detail) : Prop where
  curveSteps : Positive d.curveSteps
  standingCurveSteps : Positive d.standingCurveSteps
  surfaceGrid : Positive d.surfaceGrid
  heatmapGrid : Positive d.heatmapGrid
  planeDots : Positive d.planeDots
  planeArrows : Positive d.planeArrows
  fieldLattice : Positive d.fieldLattice
  spaceArrows : Positive d.spaceArrows
  magnitudeLattice : Positive d.magnitudeLattice
  contourLevels : Positive d.contourLevels
  dropLineEvery : Positive d.dropLineEvery

theorem default_sound [Scalar α] : (ofTable (Settings.samplingDefaults : Settings.Table α)).Sound := by
  constructor <;> exact ⟨_, rfl, by decide⟩

end Detail

/-- What is plotted, the function or the field, has a value or none at every point. -/
structure Evaluates (r : Request) (samples : Request.Samples α) : Prop where
  scalar : r.field.isSome = false → ∀ p, Returns (samples.scalar p)
  vector : r.field.isSome = true → ∀ p, Returns (samples.vector p)

end FieldPlot.Scene
