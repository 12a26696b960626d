import FieldPlot.Proofs.Sampling.MeshEdges
import FieldPlot.Proofs.Sampling.Surfaces
import FieldPlot.Proofs.Sampling.Totality
import FieldPlot.Scene.Space

/-! Iso-lines lie on the surface that they are drawn with. The factor that lifts them is found from the largest
height and the largest value, and is the one that the heights of the mesh were made with. -/

namespace FieldPlot.Scene

open Sampling (Extent Grid Sampled ends vectorSurface vectorSurface_returns)

variable {α : Type} [LawfulScalar α] {extent : Extent α} {cells : ℤ} {g : Grid α} {k : α}

theorem heightFactor_eq_ok (h : g.Proportional k) :
    ∃ factor, SpaceScene.heightFactor g = .ok factor ∧ g.Proportional factor := by
  rw [SpaceScene.heightFactor, h.peakHeight_eq, Scalar.literal_zero]
  split
  · next hpeak =>
    rw [Scalar.divide_of_ne_zero hpeak.ne', mul_div_cancel_right₀ k hpeak.ne']
    exact ⟨k, rfl, h⟩
  · next hpeak =>
    -- Nothing but zeros has been sampled, which are at the height 0 for any factor.
    rw [Scalar.literal_one]
    refine ⟨1, rfl, h.toFull, zero_le_one, fun i j => ?_⟩
    have hvalue : (g.vertex i j).value = 0 := abs_nonpos_iff.mp ((h.abs_value_le i j).trans (not_lt.mp hpeak))
    rw [h.height_eq, hvalue, mul_zero, mul_zero]

theorem sampled_spread (hx : 0 < extent.x) (hy : 0 < extent.y) (h : Sampled extent cells g) : g.Spread where
  x _ _ _ hk hik := h.x_lt hx hik hk
  y _ _ _ hl hjl := h.y_lt hy hjl hl

theorem contour_lies_on_surface (hz : 0 < extent.z) (h : Sampled extent cells g) :
    ∃ factor, SpaceScene.heightFactor g = .ok factor ∧
      (∀ i j, (g.vertex i j).height = factor * (g.vertex i j).value) ∧
      (0 < extent.x → 0 < extent.y → g.Spread) ∧
      ∀ level, ∃ segments, g.contour level = .ok segments ∧ ∀ q ∈ ends segments, g.OnMesh q (level * factor) := by
  obtain ⟨k, hk⟩ := h.proportional hz.le
  obtain ⟨factor, hfactor, hproportional⟩ := heightFactor_eq_ok hk
  refine ⟨factor, hfactor, hproportional.height_eq, fun hx hy => sampled_spread hx hy h, fun level => ?_⟩
  exact Grid.onMesh_of_mem_contour hproportional.height_eq

/-- A vortex, lower than it is sampled. -/
theorem contour_lies_on_surface_vortex :
    let extent : Extent ℚ := ⟨5, 5, 2⟩
    ∃ g, vectorSurface (fun p => .ok ⟨some (-p.y), some p.x, some 0⟩) .x extent 20 = .ok g ∧ 0 < extent.z ∧
      Sampled extent 20 g ∧ ∃ factor, SpaceScene.heightFactor g = .ok factor ∧
        (∀ i j, (g.vertex i j).height = factor * (g.vertex i j).value) ∧
        (0 < extent.x → 0 < extent.y → g.Spread) ∧
        ∀ level, ∃ segments, g.contour level = .ok segments ∧
          ∀ q ∈ ends segments, g.OnMesh q (level * factor) := by
  intro extent
  have hcells : (0 : ℤ) ≤ 20 := by decide
  obtain ⟨g, hg⟩ := vectorSurface_returns (α := ℚ) (f := fun p => .ok ⟨some (-p.y), some p.x, some 0⟩)
    (fun _ => .ok _) .x extent hcells
  have hz : 0 < extent.z := by decide
  have hsampled : Sampled extent 20 g := .field _ _ hg
  exact ⟨g, hg, hz, hsampled, contour_lies_on_surface hz hsampled⟩

end FieldPlot.Scene
