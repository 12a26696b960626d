import FieldPlot.Geometry.Point
import FieldPlot.Sampling.Spacing
import FieldPlot.Vectors.Vec

/-!
Vertex grids of a height field. A sample that is not finite counts as 0 and is marked; the height is
where the mesh is drawn, which may differ from the sampled value.
-/

namespace FieldPlot.Sampling

open Vectors (SurfaceMode Vec)

structure Vertex (α : Type) where
  value : α
  height : α
  valid : Bool
deriving Repr

/-- Samples at the positions `xs[i]`, `ys[j]`. -/
structure Grid (α : Type) where
  xs : Array α
  ys : Array α
  rows : Array (Array (Vertex α))

section

variable {α : Type} [Scalar α]

namespace Grid

/-- The number of cells along x; -1 for a grid without vertices. -/
def cells (g : Grid α) : Int :=
  (g.xs.size : Int) - 1

def x (g : Grid α) (i : Nat) : α :=
  if h : i < g.xs.size then g.xs[i] else 0.0

def y (g : Grid α) (j : Nat) : α :=
  if h : j < g.ys.size then g.ys[j] else 0.0

/-- The sample at `xs[i]`, `ys[j]`; outside of the grid there is no valid one. -/
def vertex (g : Grid α) (i j : Nat) : Vertex α :=
  if h : i < g.rows.size then
    if h' : j < g.rows[i].size then g.rows[i][j] else ⟨0.0, 0.0, false⟩
  else ⟨0.0, 0.0, false⟩

def vertexList (g : Grid α) : List (Vertex α) :=
  g.rows.toList.flatMap Array.toList

/-- The values of a list in the order in which they take precedence as an extreme. Equal values differ
only in the sign of a zero. They are compared in two lanes of every other one; the last value goes before
both if it is the second of a pair. -/
def byPrecedence (values : List α) : List α :=
  let (odd, even) := values.zipIdx.reverse.partition fun entry => entry.2 % 2 = 1
  let odd := odd.map (·.1)
  let even := even.map (·.1)
  if values.length % 2 = 0 then odd.take 1 ++ even ++ odd.drop 1 else even ++ odd

/-- The smallest and the largest valid value. -/
def valueRange (g : Grid α) : Option (α × α) :=
  let values := byPrecedence ((g.vertexList.filter (·.valid)).map (·.value))
  match Scalar.smallest? values, Scalar.largest? values with
  | some lo, some hi => some (lo, hi)
  | _, _ => none

/-- The grid of the samples of `f` at the positions `xs` and `ys`, each turned into a vertex. -/
def ofSamples (xs ys : List α) (f : Point α → Except Fault (Option α))
    (vertex : α → Bool → Vertex α) : Except Fault (Grid α) := do
  let rows ← xs.mapM fun x => do
    let row ← ys.mapM fun y => do
      match ← f ⟨x, y, 0.0⟩ with
      | some value => return vertex value true
      | none => return vertex 0.0 false
    return row.toArray
  return ⟨xs.toArray, ys.toArray, rows.toArray⟩

/-- The grid with other heights. -/
def mapHeights (g : Grid α) (height : α → α) : Grid α :=
  { g with rows := g.rows.map (·.map fun v => { v with height := height v.value }) }

/-- The largest absolute value; 0 for an empty grid. -/
def peak (g : Grid α) : α :=
  (Scalar.largest? (g.vertexList.map fun v => Scalar.abs v.value)).getD 0.0

def peakHeight (g : Grid α) : α :=
  (Scalar.largest? (g.vertexList.map fun v => Scalar.abs v.height)).getD 0.0

end Grid

/-- `a` moved between the bounds; without order among them it becomes undefined as well. -/
def confine (lo hi a : α) : α :=
  if Scalar.isUndefined lo then lo
  else if Scalar.isUndefined hi then hi
  else
    let a := if a < lo then lo else a
    if hi < a then hi else a

/-- The domain and value range of a plot in space. -/
structure Extent (α : Type) where
  x : α
  y : α
  z : α
deriving Repr

/-- A function over the floor, its values moved into the value range. -/
def surface (f : Point α → Except Fault (Option α)) (extent : Extent α) (cells : Int) :
    Except Fault (Grid α) := do
  let xs ← vertices extent.x cells
  let ys ← vertices extent.y cells
  Grid.ofSamples xs ys f fun value valid =>
    let v := confine (-extent.z) extent.z value
    ⟨v, v, valid⟩

/-- A function over the floor, its heights scaled so that the largest value reaches the end of the
value range. -/
def scaledSurface (f : Point α → Except Fault (Option α)) (extent : Extent α) (cells : Int) :
    Except Fault (Grid α) := do
  let xs ← vertices extent.x cells
  let ys ← vertices extent.y cells
  let g ← Grid.ofSamples xs ys f fun value valid => ⟨value, value, valid⟩
  let peak := g.peak
  let scale ← if 0.0 < peak then Scalar.divide extent.z peak else .ok 1.0
  return g.mapHeights fun value => confine (-extent.z) extent.z (value * scale)

/-- A scalar of a planar field over the floor, scaled to fill the value range. -/
def vectorSurface (f : Point α → Except Fault (Vec (Option α))) (mode : SurfaceMode)
    (extent : Extent α) (cells : Int) : Except Fault (Grid α) :=
  scaledSurface (fun p => return (← f p).component? mode) extent cells

/-- The visible part of the plane. -/
structure Window (α : Type) where
  xMin : α
  xMax : α
  yMin : α
  yMax : α
deriving Repr, DecidableEq

/-- A function over a window of the plane, its values as they are. -/
def windowGrid (f : Point α → Except Fault (Option α)) (w : Window α) (cells : Int) :
    Except Fault (Grid α) := do
  let xs ← evenly w.xMin w.xMax (cells + 1)
  let ys ← evenly w.yMin w.yMax (cells + 1)
  Grid.ofSamples xs ys f fun value valid => ⟨value, value, valid⟩

/-- The centres of `cells` equal cells between `lo` and `hi`. -/
def centres (lo hi : α) (cells : Int) : Except Fault (List α) := do
  let n ← Scalar.listLength α cells
  (List.range n).mapM fun k => do
    return lo + (← Scalar.divide ((hi - lo) * (Scalar.ofNat k + 0.5)) (Scalar.ofInt cells))

/-- The samples at the centres of the cells of a window, column by column. -/
def heatmap (f : Point α → Except Fault (Option α)) (w : Window α) (cells : Int) :
    Except Fault (List (List (Option α))) := do
  let xs ← centres w.xMin w.xMax cells
  let ys ← centres w.yMin w.yMax cells
  xs.mapM fun x => ys.mapM fun y => f ⟨x, y, 0.0⟩

end

end FieldPlot.Sampling
