import FieldPlot.Proofs.Expression.Mentions
import FieldPlot.Proofs.Request.Submission
import FieldPlot.Proofs.Scalar.Exact

/-! What a plot is a function of. A coordinate whose letter does not stand alone in the text has no
influence on the value, so that a function which is shown in the plane is one of x. -/

namespace FieldPlot.Request

open Expression (Arithmetic Evaluation Formula evaluate evaluate_of_unused usesY usesZ)

section

variable {α : Type} [Scalar α] [Arithmetic α]

theorem samples_scalar_congr {r : Request} {p q : Point α}
    (h : evaluate r.expression p = evaluate r.expression q) :
    (r.samples : Samples α).scalar p = r.samples.scalar q := by
  have hvalue : (Formula.ofChars r.expression).value p = (Formula.ofChars r.expression).value q := by
    rw [Formula.value_eq, Formula.value_eq, h]
  exact congrArg (Except.map Scalar.finite?) hvalue

/-- Neither the value nor the issues depend on a coordinate that is not used, and a function that does not
need the third dimension depends on x alone. -/
theorem unused_coordinates_ignored (s : List Char) :
    (usesY s = false → ∀ p q : Point α, p.x = q.x → p.z = q.z → evaluate s p = evaluate s q) ∧
    (usesZ s = false → ∀ p q : Point α, p.x = q.x → p.y = q.y → evaluate s p = evaluate s q) ∧
    ∀ (o : Options α) (r : Request) (entries : List Entry), ofExpression o s = (.ok r, entries) →
      r.field = none → r.spatial = false → ∀ p q : Point α, p.x = q.x →
        evaluate r.expression p = evaluate r.expression q ∧
          (r.samples : Samples α).scalar p = r.samples.scalar q := by
  refine ⟨fun hy p q hx hz => ?_, fun hz p q hx hy => ?_, ?_⟩
  · exact evaluate_of_unused hx (fun h => by simp [hy] at h) fun _ => hz
  · exact evaluate_of_unused hx (fun _ => hy) fun h => by simp [hz] at h
  · intro o r entries hr hscalar hplane p q hx
    suffices h : evaluate r.expression p = evaluate r.expression q from ⟨h, samples_scalar_congr h⟩
    cases accepts_of_ok hr with
    | field _ h =>
      rw [(ofField_eq_ok h).2] at hscalar
      cases hscalar
    | function _ h =>
      obtain ⟨hexpression, -, hspatial⟩ := ofFunction_eq_ok h
      rw [hspatial, Bool.or_eq_false_iff] at hplane
      obtain ⟨hy, hz⟩ := hplane
      rw [hexpression]
      exact evaluate_of_unused hx (fun h => by simp [hy] at h) fun h => by simp [hz] at h

end

/-- The letters of `xy3` and `zx` stand beside others, so that the value at a point is that of 2 x. -/
theorem unused_coordinates_ignored_glued :
    let s := "2*x + 0*xy3 - 0*zx".toList
    usesY s = false ∧ usesZ s = false ∧
    evaluate s (⟨2, 3, 5⟩ : Point ℚ) = evaluate s ⟨2, -1, 5⟩ ∧
    evaluate s (⟨2, 3, 5⟩ : Point ℚ) = evaluate s ⟨2, 3, -1⟩ ∧
    ∃ r entries, ofExpression ({} : Options ℚ) s = (.ok r, entries) ∧ r.field = none ∧
      r.spatial = false ∧ evaluate r.expression (⟨2, 3, 5⟩ : Point ℚ) = evaluate r.expression ⟨2, -1, 7⟩ := by
  intro s
  have hy : usesY s = false := by decide
  have hz : usesZ s = false := by decide
  obtain ⟨hunusedY, hunusedZ, hplane⟩ := unused_coordinates_ignored (α := ℚ) s
  refine ⟨hy, hz, hunusedY hy _ _ rfl rfl, hunusedZ hz _ _ rfl rfl, ?_⟩
  let r : Request := ⟨s, none, false, .function, .none, false, true, []⟩
  have hr : ofExpression ({} : Options ℚ) s = (.ok r, []) := by decide +kernel
  exact ⟨r, [], hr, rfl, rfl, (hplane {} r [] hr rfl rfl ⟨2, 3, 5⟩ ⟨2, -1, 7⟩ rfl).1⟩

end FieldPlot.Request
