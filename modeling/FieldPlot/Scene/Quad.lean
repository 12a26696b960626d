import FieldPlot.Geometry.Projection
import FieldPlot.Sampling.Grid
import FieldPlot.Sorting.Runs
import FieldPlot.View.Space

/-!
The cells of a surface as they are seen: four corners on the canvas, the mean distance of the corners
into the screen, and the mean of the sampled values. Cells are painted from the farthest to the
nearest, equally far ones in grid order.
-/

namespace FieldPlot.Scene

open Sampling (Grid)
open View (SpaceView)

structure Quad (α : Type) where
  corners : List (Pixel α)
  depth : α
  value : α
deriving Repr

/-- A model point in the scene: its place after the rotation and its image. -/
structure Placed (α : Type) where
  point : Point α
  image : Option (Pixel α)

variable {α : Type} [Scalar α]

/-- A scene point, rotated and projected. -/
def place (v : SpaceView α) (width height : α) (p : Point α) : Except Fault (Placed α) := do
  let q ← p.rotated v.rotationX v.rotationZ
  return ⟨q, (v.lens width height).image? q⟩

/-- Items in order of decreasing distance, equally distant ones as they come. Where a distance has no
order, the comparisons of merging runs from the last item on settle the place of the others. -/
def farthestFirst {β : Type} (distance : β → α) (items : List β) : List β :=
  if items.any fun a => Scalar.isUndefined (distance a) then
    (Sorting.sort (fun a b => decide (distance a < distance b)) items.reverse).reverse
  else items.mergeSort fun a b => distance b ≤ distance a

/-- The cell with these corners and values, if every corner has an image. -/
def Quad.ofCorners? (a b c d : Placed α) (sum : α) : Option (Quad α) := do
  return ⟨[← a.image, ← b.image, ← c.image, ← d.image],
    (a.point.y + b.point.y + c.point.y + d.point.y) / 4.0, sum / 4.0⟩

/-- The cells of a grid, column by column. -/
def quads (g : Grid α) (v : SpaceView α) (width height : α) : Except Fault (List (Quad α)) := do
  let scale ← v.scales
  let n := g.cells
  let placed ← (List.range (n + 1).toNat).mapM fun i => do
    let row ← (List.range (n + 1).toNat).mapM fun j =>
      place v width height ⟨g.x i * scale.x, g.y j * scale.y, (g.vertex i j).height * scale.z⟩
    return row.toArray
  let placed := placed.toArray
  let corner? (i j : Nat) : Option (Placed α) := do (← placed[i]?)[j]?
  return (List.range n.toNat).flatMap fun i => (List.range n.toNat).filterMap fun j => do
    Quad.ofCorners? (← corner? i j) (← corner? (i + 1) j) (← corner? (i + 1) (j + 1))
      (← corner? i (j + 1))
      ((g.vertex i j).value + (g.vertex (i + 1) j).value + (g.vertex (i + 1) (j + 1)).value +
        (g.vertex i (j + 1)).value)

def sortQuads (quads : List (Quad α)) : List (Quad α) :=
  farthestFirst Quad.depth quads

end FieldPlot.Scene
