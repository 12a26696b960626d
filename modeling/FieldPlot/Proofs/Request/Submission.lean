import FieldPlot.Proofs.Outcome
import FieldPlot.Request

/-! How a submission comes out. An accepted text is either a vector field or, if it has stood its trial, a
scalar function; where the modes follow from the text, nothing but a refusal keeps it from that. -/

namespace FieldPlot.Request

open Expression (Issue)
open Vectors (Components Convention SurfaceMode decompose)

variable {α : Type} [Scalar α] {o : Options α} {s text : List Char} {issues : List Issue} {r : Request}

theorem ofField_eq_ok {field : Components} (h : ofField o s field = .ok r) :
    r.expression = s ∧ r.field = some field := by
  unfold ofField at h
  obtain ⟨_, -, h⟩ := bind_eq_ok.mp h
  split at h
  all_goals
    obtain ⟨_, -, h⟩ := bind_eq_ok.mp h
    obtain rfl := pure_eq_ok.mp h
    exact ⟨rfl, rfl⟩

theorem ofFunction_eq_ok (h : ofFunction o s issues = .ok r) : r.expression = s ∧ r.field = none ∧
    r.spatial = (Expression.usesY s || Expression.usesZ s) := by
  unfold ofFunction at h
  split at h
  all_goals
    obtain ⟨_, -, h⟩ := bind_eq_ok.mp h
    obtain ⟨_, -, h⟩ := bind_eq_ok.mp h
    obtain rfl := pure_eq_ok.mp h
    exact ⟨rfl, rfl, rfl⟩

theorem trial_cases (s : List Char) :
    (∃ issues more, trial s = (.ok issues, more) ∧ Expression.check s = .ok issues) ∨
      ∃ more, trial s = (.error (.rejected "Invalid function syntax" [tooDeep]), more) := by
  unfold trial
  split
  · next h => exact .inl ⟨_, _, rfl, h⟩
  · next h => exact .inl ⟨_, _, rfl, h⟩
  · exact .inr ⟨_, rfl⟩

/-- The ways in which a trimmed text is accepted. A field is not tried. -/
inductive Accepts (o : Options α) (s : List Char) (r : Request) : Prop
  | field {convention : Convention} {field : Components}
    (hfield : (decompose convention s).1 = some field) (h : ofField o s field = .ok r)
  | function {issues : List Issue} (htrial : o.strict = true → Expression.check s = .ok issues)
    (h : ofFunction o s issues = .ok r)

theorem accepts_of_ok {entries : List Entry} (h : ofExpression o text = (.ok r, entries)) :
    Accepts o (Text.trim text) r := by
  unfold ofExpression at h
  dsimp only at h
  split at h
  · cases h
  split at h
  · cases h
  · next convention _ =>
    split at h
    · next field _ hparse =>
      exact .field (congrArg Prod.fst hparse) (Prod.mk.inj h).1
    · split at h
      · rcases trial_cases (Text.trim text) with ⟨issues, more, htrial, hcheck⟩ | ⟨more, htrial⟩
        · rw [htrial] at h
          exact .function (fun _ => hcheck) (Prod.mk.inj h).1
        · rw [htrial] at h
          cases h
      · next hstrict => exact .function (fun hs => absurd hs hstrict) (Prod.mk.inj h).1

section

variable (hplot : o.plotMode = .null) (hsurface : o.surfaceMode = .null)

include hplot hsurface

theorem ofField_automatic (s : List Char) (field : Components) : ∃ r, ofField o s field = .ok r := by
  simp only [ofField, hplot, hsurface]
  exact ⟨_, rfl⟩

theorem ofFunction_automatic (s : List Char) (issues : List Issue) :
    ∃ r, ofFunction o s issues = .ok r := by
  simp only [ofFunction, hplot, hsurface]
  exact ⟨_, rfl⟩

/-- Modes that are not set follow from the text, so that only a refusal is left to fail. -/
theorem ofExpression_automatic {convention : Convention}
    (hconvention : Convention.ofValue o.convention = .ok convention) (text : List Char) :
    (∃ r entries, ofExpression o text = (.ok r, entries)) ∨
      ∃ reason issues entries, ofExpression o text = (.error (.rejected reason issues), entries) := by
  unfold ofExpression
  dsimp only
  split
  · exact .inr ⟨_, _, _, rfl⟩
  rw [hconvention]
  dsimp only
  split
  · next field entries _ =>
    obtain ⟨r, hr⟩ := ofField_automatic hplot hsurface (Text.trim text) field
    exact .inl ⟨r, entries, by rw [hr]⟩
  · next entries _ =>
    split
    · rcases trial_cases (Text.trim text) with ⟨issues, more, htrial, -⟩ | ⟨more, htrial⟩
      · obtain ⟨r, hr⟩ := ofFunction_automatic hplot hsurface (Text.trim text) issues
        exact .inl ⟨r, entries ++ more, by rw [htrial, ← hr]⟩
      · exact .inr ⟨_, _, entries ++ more, by rw [htrial]⟩
    · obtain ⟨r, hr⟩ := ofFunction_automatic hplot hsurface (Text.trim text) []
      exact .inl ⟨r, entries, by rw [hr]⟩

end

end FieldPlot.Request
