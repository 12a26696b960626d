import FieldPlot.Fault
import FieldPlot.Journal

/-!
Steps of a stateful object. A step that fails keeps what it has changed until then, so the state it
leaves behind is part of the result in any case.
-/

namespace FieldPlot

/-- What a step leaves behind. -/
structure Step (σ : Type) where
  state : σ
  entries : List Entry := []
  fault : Option Fault := none

namespace Step

variable {σ τ : Type}

def done (s : σ) : Step σ :=
  { state := s }

def failed (s : σ) (f : Fault) : Step σ :=
  { state := s, fault := some f }

/-- A step that changes the state at once or not at all. -/
def atomic (s : σ) (next : Except Fault σ) : Step σ :=
  match next with
  | .ok t => done t
  | .error f => failed s f

/-- Goes on with `next` unless the step has failed. -/
def andThen (step : Step σ) (next : σ → Step σ) : Step σ :=
  match step.fault with
  | some _ => step
  | none =>
    let after := next step.state
    { after with entries := step.entries ++ after.entries }

def map (f : σ → τ) (step : Step σ) : Step τ :=
  { state := f step.state, entries := step.entries, fault := step.fault }

end Step

end FieldPlot
