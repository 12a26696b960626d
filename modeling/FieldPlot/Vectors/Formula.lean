import FieldPlot.Expression.Formula
import FieldPlot.Vectors.Decomposition
import FieldPlot.Vectors.Vec

/-!
Vector fields ready for sampling: one formula for each component that is present.
-/

namespace FieldPlot.Vectors

open Expression (Arithmetic Formula)

structure FieldFormula (α : Type) where
  x : Option (Formula α)
  y : Option (Formula α)
  z : Option (Formula α)

namespace FieldFormula

variable {α : Type} [Arithmetic α] [Scalar α]

def ofComponents (f : Components) : FieldFormula α :=
  ⟨f.x.map Formula.ofChars, f.y.map Formula.ofChars, f.z.map Formula.ofChars⟩

/-- The value of a component; an absent one is zero. -/
def componentValue (f : Option (Formula α)) (p : Point α) : Except Fault α :=
  match f with
  | some f => f.value p
  | none => .ok 0.0

def value (f : FieldFormula α) (p : Point α) : Except Fault (Vec α) := do
  return ⟨← componentValue f.x p, ← componentValue f.y p, ← componentValue f.z p⟩

/-- The components where they are finite. -/
def sample (f : FieldFormula α) (p : Point α) : Except Fault (Vec (Option α)) :=
  (f.value p).map (Vec.map Scalar.finite?)

end FieldFormula

end FieldPlot.Vectors
