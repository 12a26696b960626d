import FieldPlot.Settings.Panel
import FieldPlot.Scalar.Double

/-! What a panel offers is what a plot reads, and what it describes is there from the start. -/

namespace FieldPlot.Settings

open Vectors (Convention SurfaceMode)
open View (ZoomAxis)

section

variable {α : Type} [Scalar α]

theorem plotMode_read (mode : PlotMode) : PlotMode.ofValue (.text mode.name : Value α) = .ok mode := by
  cases mode <;> rfl

theorem surfaceMode_read (mode : SurfaceMode) : SurfaceMode.ofValue (.text mode.name : Value α) = .ok mode := by
  cases mode <;> rfl

theorem zoomAxis_read (axis : ZoomAxis) : ZoomAxis.ofValue (.text axis.name : Value α) = .ok axis := by
  cases axis <;> rfl

theorem convention_read (convention : Convention) :
    Convention.ofValue (.text convention.name : Value α) = .ok convention := by
  cases convention <;> rfl

/-- Whatever is chosen from the lists of a panel, a request or a zoom can read it. -/
theorem choices_read :
    (∀ s ∈ plotModeChoices, s = "auto" ∨ ∃ mode, PlotMode.ofValue (.text s : Value α) = .ok mode) ∧
    (∀ s ∈ surfaceModeChoices, s = "auto" ∨ ∃ mode, SurfaceMode.ofValue (.text s : Value α) = .ok mode) ∧
    (∀ s ∈ zoomAxisChoices, ∃ axis, ZoomAxis.ofValue (.text s : Value α) = .ok axis) ∧
    ∀ s ∈ conventionChoices, ∃ convention, Convention.ofValue (.text s : Value α) = .ok convention := by
  refine ⟨fun s hs => ?_, fun s hs => ?_, fun s hs => ?_, fun s hs => ?_⟩
  · refine (List.mem_cons.mp hs).imp_right fun hs => ?_
    obtain ⟨mode, -, rfl⟩ := List.mem_map.mp hs
    exact ⟨mode, plotMode_read mode⟩
  · refine (List.mem_cons.mp hs).imp_right fun hs => ?_
    obtain ⟨mode, -, rfl⟩ := List.mem_map.mp hs
    exact ⟨mode, surfaceMode_read mode⟩
  · obtain ⟨axis, -, rfl⟩ := List.mem_map.mp hs
    exact ⟨axis, zoomAxis_read axis⟩
  · obtain ⟨convention, -, rfl⟩ := List.mem_map.mp hs
    exact ⟨convention, convention_read convention⟩

end

/-- The places of all settings, each by its section and key. -/
def places (state : Table Float) : List String :=
  state.flatMap fun (name, value) =>
    match value with
    | .table t => t.map fun entry => name ++ "." ++ entry.1
    | _ => []

theorem tooltips_described : ∀ tip ∈ tooltips, tip.1 ∈ places defaults := by
  decide +kernel

end FieldPlot.Settings
