import FieldPlot.Sampling.Grid

/-!
Iso-lines of a grid. A cell with corners on both sides of the level is crossed on the edges whose ends
lie on different sides; crossings are interpolated along the edge and joined in pairs around the cell.
-/

namespace FieldPlot.Sampling

variable {α : Type} [Scalar α]

/-- `count` levels strictly between `lo` and `hi`, evenly spaced. -/
def contourLevels (lo hi : α) (count : Int) : Except Fault (List α) :=
  if Scalar.isFinite lo && Scalar.isFinite hi && !(lo == hi) && 0 < count then do
    let parts ← Scalar.ofInt? (count + 1)
    (List.range count.toNat).mapM fun k => do
      return lo + (← Scalar.divide ((hi - lo) * Scalar.ofNat (k + 1)) parts)
  else .ok []

/-- A position on the floor. -/
abbrev Spot (α : Type) := α × α

/-- The corners of a cell, counterclockwise from its lower left one. -/
structure Cell (α : Type) where
  x₀ : α
  x₁ : α
  y₀ : α
  y₁ : α
  v₀ : α
  v₁ : α
  v₂ : α
  v₃ : α

namespace Cell

/-- How far along an edge from `a` to `b` the level lies. -/
def parameter (level a b : α) : Except Fault α :=
  Scalar.divide (level - a) (b - a)

/-- The crossing of the level with an edge, if the ends of the edge lie on different sides. -/
def crossing (level a b : α) (spot : α → Spot α) : Except Fault (Option (Spot α)) :=
  if decide (level ≤ a) != decide (level ≤ b) then do return some (spot (← parameter level a b))
  else .ok none

/-- The crossings around the cell: the lower, right, upper and left edge. -/
def crossings (level : α) (c : Cell α) : Except Fault (List (Spot α)) := do
  let lower ← crossing level c.v₀ c.v₁ fun t => (c.x₀ + t * (c.x₁ - c.x₀), c.y₀)
  let right ← crossing level c.v₁ c.v₂ fun t => (c.x₁, c.y₀ + t * (c.y₁ - c.y₀))
  let upper ← crossing level c.v₃ c.v₂ fun t => (c.x₀ + t * (c.x₁ - c.x₀), c.y₁)
  let left ← crossing level c.v₀ c.v₃ fun t => (c.x₀, c.y₀ + t * (c.y₁ - c.y₀))
  return [lower, right, upper, left].filterMap id

/-- Joins the first crossing with the second and the third with the fourth. -/
def join : List (Spot α) → List (Spot α × Spot α)
  | a :: b :: rest => (a, b) :: join rest
  | _ => []

def segments (level : α) (c : Cell α) : Except Fault (List (Spot α × Spot α)) := do
  return join (← c.crossings level)

end Cell

namespace Grid

/-- The cell between the vertices `i`, `j` and `i + 1`, `j + 1`, if all its corners are valid. -/
def cell? (g : Grid α) (i j : Nat) : Option (Cell α) :=
  let a := g.vertex i j
  let b := g.vertex (i + 1) j
  let c := g.vertex (i + 1) (j + 1)
  let d := g.vertex i (j + 1)
  if a.valid && b.valid && c.valid && d.valid then
    some ⟨g.x i, g.x (i + 1), g.y j, g.y (j + 1), a.value, b.value, c.value, d.value⟩
  else none

/-- The segments of an iso-line, column by column. -/
def contour (g : Grid α) (level : α) : Except Fault (List (Spot α × Spot α)) := do
  let columns ← (List.range (g.xs.size - 1)).mapM fun i => do
    let segments ← (List.range (g.ys.size - 1)).mapM fun j =>
      match g.cell? i j with
      | some c => c.segments level
      | none => .ok []
    return segments.flatten
  return columns.flatten

end Grid

end FieldPlot.Sampling
