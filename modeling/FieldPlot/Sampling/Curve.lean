import FieldPlot.Geometry.Point
import FieldPlot.Scalar.Basic

/-!
Sampled curves, cut into stretches. A stretch ends where a sample is missing and before a jump, so no
asymptote is bridged.
-/

namespace FieldPlot.Sampling

variable {α : Type} [Scalar α]

/-- The maximal stretches of samples `(x, value)` without a gap or a jump of more than `jump`. -/
def stretches (jump : α) : List (Option (α × α)) → List (List (α × α))
  | [] => []
  | none :: samples => stretches jump samples
  | some p :: samples =>
    match samples, stretches jump samples with
    | some q :: _, stretch :: others =>
      if jump < Scalar.abs (q.2 - p.2) then [p] :: stretch :: others else (p :: stretch) :: others
    | _, others => [p] :: others

/-- A sample that is drawn: one that is finite and within the limit, if there is one. -/
def withinLimit (limit : Option α) (value : α) : Bool :=
  !limit.any (· < Scalar.abs value)

/-- The stretches of `f(x, 0)` at `steps + 1` positions from `lo` to `hi`. A jump is a change by more
than half of `valueRange`. -/
def curve (f : Point α → Except Fault (Option α)) (lo hi valueRange : α) (steps : Int)
    (limit : Option α) : Except Fault (List (List (α × α))) :=
  if steps < 0 then .ok []
  else do
    let total ← Scalar.ofInt? steps
    let samples ← (List.range (steps.toNat + 1)).mapM fun i => do
      let x := lo + (← Scalar.divide ((hi - lo) * Scalar.ofNat i) total)
      let value ← f ⟨x, 0.0, 0.0⟩
      return (value.filter (withinLimit limit)).map fun v => (x, v)
    return stretches (valueRange * 0.5) samples

end FieldPlot.Sampling
