import FieldPlot.Request
import FieldPlot.Sampling.Contour
import FieldPlot.Sampling.Curve
import FieldPlot.Scene.Canvas
import FieldPlot.Scene.Detail
import FieldPlot.View.Plane

/-!
The scene of a plot in the plane: grid lines and axes, then a heatmap, a curve, dots or arrows,
iso-lines over them, and the numbers at the axes last.
-/

namespace FieldPlot.Scene

open Vectors (SurfaceMode Vec)
open View (PlaneView)

/-- Everything a plot in the plane is built from. -/
structure PlaneScene (α : Type) where
  request : Request
  samples : Request.Samples α
  view : PlaneView α
  palette : Palette α
  detail : Detail
  canvas : Canvas α

namespace PlaneScene

variable {α : Type} [Scalar α] (s : PlaneScene α)

/-- The place of a model point on the canvas. -/
def pixel (x y : α) : Except Fault (Pixel α) :=
  PlaneView.toScreen s.view s.canvas.width s.canvas.height x y

def modelLine (stroke : Stroke α) (role : Role) (p q : α × α) : Except Fault (List (Item α)) := do
  let a ← s.pixel p.1 p.2
  let b ← s.pixel q.1 q.2
  s.canvas.line stroke role 0.0 (some a) (some b)

def colourBar (lo hi : α) : List (Item α) :=
  s.canvas.colourBar s.palette s.request.showColorbar lo hi

/-! ### Grid, axes and numbers -/

def spacingX : Except Fault α :=
  Sampling.gridSpacing (Scalar.abs (PlaneView.spanX s.view)) 8

def spacingY : Except Fault α :=
  Sampling.gridSpacing (Scalar.abs (PlaneView.spanY s.view)) 8

/-- The largest multiple of `spacing` not above `a`. -/
def multipleBelow (a spacing : α) : Except Fault α := do
  return Scalar.ofInt (← Scalar.floor? (← Scalar.divide a spacing)) * spacing

/-- The smallest multiple of `spacing` not below `a`. -/
def multipleAbove (a spacing : α) : Except Fault α := do
  return Scalar.ofInt (← Scalar.ceil? (← Scalar.divide a spacing)) * spacing

/-- A length that something is divided by; zero counts as 1. -/
def nonzero (a : α) : α :=
  if a == 0.0 then 1.0 else a

/-- The grid lines at `start`, `start + spacing`, … along y. -/
def columns (stroke : Stroke α) (role : Role) (start spacing : α) : Except Fault (List (Item α)) := do
  (← Sampling.steps start s.view.xMax spacing).flatMapM fun x =>
    s.modelLine stroke role (x, s.view.yMin) (x, s.view.yMax)

/-- The grid lines at `start`, `start + spacing`, … along x. -/
def rows (stroke : Stroke α) (role : Role) (start spacing : α) : Except Fault (List (Item α)) := do
  (← Sampling.steps start s.view.yMax spacing).flatMapM fun y =>
    s.modelLine stroke role (s.view.xMin, y) (s.view.xMax, y)

/-- Whether lines with that spacing are at least twelve pixels apart. -/
def isRoomy (spacing size span : α) : Except Fault Bool := do
  return decide (12.0 ≤ (← Scalar.divide (spacing * size) span))

def grid : Except Fault (List (Item α)) := do
  let v := s.view
  let spacingX ← s.spacingX
  let spacingY ← s.spacingY
  let spanX := nonzero (Scalar.abs (PlaneView.spanX v))
  let spanY := nonzero (Scalar.abs (PlaneView.spanY v))
  let startX ← multipleBelow v.xMin spacingX
  let startY ← multipleBelow v.yMin spacingY
  let fine : Stroke α := ⟨s.palette.grid, 0.12, 0.8⟩
  let coarse : Stroke α := ⟨s.palette.grid, 0.25, 1.2⟩
  let fineX := spacingX / 5.0
  let fineY := spacingY / 5.0
  let fineColumns ←
    if ← isRoomy fineX s.canvas.width spanX then s.columns fine .subgrid startX fineX else .ok []
  let fineRows ←
    if ← isRoomy fineY s.canvas.height spanY then s.rows fine .subgrid startY fineY else .ok []
  let columns ← s.columns coarse .grid startX spacingX
  let rows ← s.rows coarse .grid startY spacingY
  return fineColumns ++ fineRows ++ columns ++ rows

/-- Whether the line of ordinate 0 is in the window. -/
def showsAxisX : Bool :=
  s.view.yMin ≤ 0.0 && 0.0 ≤ s.view.yMax

/-- Whether the line of abscissa 0 is in the window. -/
def showsAxisY : Bool :=
  s.view.xMin ≤ 0.0 && 0.0 ≤ s.view.xMax

/-- An axis and the glow under it. -/
def axisLine (p q : α × α) : Except Fault (List (Item α)) := do
  let glow ← s.modelLine ⟨s.palette.label, 0.35, 6.0⟩ .axisGlow p q
  let core ← s.modelLine ⟨s.palette.label, 0.6, 2.0⟩ .axis p q
  return glow ++ core

/-- The numbers that are marked on an axis: the multiples of the spacing but zero. -/
def marks (lo hi spacing : α) : Except Fault (List α) := do
  let all ← Sampling.steps (← multipleAbove lo spacing) hi spacing
  return all.filter fun a => 0.001 < Scalar.abs a

/-- A coordinate kept `margin` pixels away from both sides of the canvas. -/
def keepInside (a margin size : α) : α :=
  Scalar.smaller (Scalar.larger a margin) (size - margin)

def ticksX : Except Fault (List (Item α)) := do
  let y := keepInside (← s.pixel 0.0 0.0).y 10.0 s.canvas.height
  (← marks s.view.xMin s.view.xMax (← s.spacingX)).flatMapM fun a => do
    let x := (← s.pixel a 0.0).x
    s.canvas.line ⟨s.palette.label, 0.5, 1.0⟩ .tick 0.0 (some ⟨x, y - 5.0⟩) (some ⟨x, y + 5.0⟩)

def ticksY : Except Fault (List (Item α)) := do
  let x := keepInside (← s.pixel 0.0 0.0).x 10.0 s.canvas.width
  (← marks s.view.yMin s.view.yMax (← s.spacingY)).flatMapM fun a => do
    let y := (← s.pixel 0.0 a).y
    s.canvas.line ⟨s.palette.label, 0.5, 1.0⟩ .tick 0.0 (some ⟨x - 5.0, y⟩) (some ⟨x + 5.0, y⟩)

def axes : Except Fault (List (Item α)) := do
  let v := s.view
  let axisX ← if s.showsAxisX then s.axisLine (v.xMin, 0.0) (v.xMax, 0.0) else .ok []
  let axisY ← if s.showsAxisY then s.axisLine (0.0, v.yMin) (0.0, v.yMax) else .ok []
  let ticksX ← if s.showsAxisX then s.ticksX else .ok []
  let ticksY ← if s.showsAxisY then s.ticksY else .ok []
  return axisX ++ axisY ++ ticksX ++ ticksY

def label (anchor : Anchor) (position : Pixel α) (a : α) : Item α :=
  Canvas.text s.palette.label ⟨12.0, false, anchor⟩ .label position (numberLabel a)

def labelsX : Except Fault (List (Item α)) := do
  let y := keepInside (← s.pixel 0.0 0.0).y 20.0 s.canvas.height
  (← marks s.view.xMin s.view.xMax (← s.spacingX)).mapM fun a => do
    return s.label .top ⟨(← s.pixel a 0.0).x, y + 8.0⟩ a

def labelsY : Except Fault (List (Item α)) := do
  let x := keepInside (← s.pixel 0.0 0.0).x 30.0 s.canvas.width
  (← marks s.view.yMin s.view.yMax (← s.spacingY)).mapM fun a => do
    return s.label .right ⟨x - 8.0, (← s.pixel 0.0 a).y⟩ a

def labels : Except Fault (List (Item α)) := do
  let labelsX ← if s.showsAxisX then s.labelsX else .ok []
  let labelsY ← if s.showsAxisY then s.labelsY else .ok []
  return labelsX ++ labelsY

/-! ### Heatmap and iso-lines -/

/-- The scalar that is shown: the function itself, or what the surface mode takes from the field. -/
def shownScalar (p : Point α) : Except Fault (Option α) :=
  if s.request.field.isSome then do
    return (← s.samples.vector p).component? s.request.surfaceMode
  else s.samples.scalar p

/-- Whether the plot has values all over the plane: a field, or a function of y. -/
def fillsPlane : Bool :=
  s.request.field.isSome || Expression.usesY s.request.expression

/-- A range of values that is not empty. -/
def widen (lo hi : α) : α × α :=
  if hi == lo then (lo, lo + 1.0) else (lo, hi)

/-- The tile of the cell `i`, `j`, one pixel wider and higher than the cell. -/
def tile (cellWidth cellHeight : α) (i j : Nat) : List (Pixel α) :=
  let left := Scalar.ofNat i * cellWidth
  let top := s.canvas.height - Scalar.ofNat (j + 1) * cellHeight
  [⟨left, top⟩, ⟨left + cellWidth + 1.0, top⟩, ⟨left + cellWidth + 1.0, top + cellHeight + 1.0⟩,
    ⟨left, top + cellHeight + 1.0⟩]

def heatmapTiles (cells : Int) (lo hi : α) (values : List (List (Option α))) :
    Except Fault (List (Item α)) := do
  let total ← Scalar.ofInt? cells
  let cellWidth ← Scalar.divide s.canvas.width total
  let cellHeight ← Scalar.divide s.canvas.height total
  let opacity ← s.palette.heatmapOpacity
  values.zipIdx.flatMapM fun (column, i) => column.zipIdx.flatMapM fun (value, j) => do
    match value with
    | none => return []
    | some value =>
      let colour ← s.palette.jet (← normalise value lo hi)
      return [⟨.polygon (s.tile cellWidth cellHeight i j) ⟨colour, opacity⟩, ⟨colour, 0.0, 0.0⟩,
        .heatmap, 0.0⟩]

def heatmap : Except Fault (List (Item α)) := do
  if s.fillsPlane then
    let cells ← s.detail.heatmapGrid
    let values ← Sampling.heatmap s.shownScalar s.view cells
    let finite := values.flatMap (·.filterMap id)
    match Scalar.smallest? finite, Scalar.largest? finite with
    | some lo, some hi =>
      let fromZero : Bool := s.request.field.isSome && s.request.surfaceMode = .magnitude
      let (lo, hi) := widen (if fromZero then 0.0 else lo) hi
      return (← s.heatmapTiles cells lo hi values) ++ s.colourBar lo hi
    | _, _ => return []
  else return []

def contours : Except Fault (List (Item α)) := do
  if s.fillsPlane && !(s.request.field.isSome && s.request.surfaceMode = .none) then
    let grid ← Sampling.windowGrid s.shownScalar s.view (← s.detail.surfaceGrid)
    match grid.valueRange with
    | none => return []
    | some (lo, hi) =>
      let levels ← Sampling.contourLevels lo hi (← s.detail.contourLevels)
      levels.flatMapM fun level => do
        let colour ← s.palette.jet (← normalise level lo hi)
        (← grid.contour level).flatMapM fun (p, q) => s.modelLine ⟨colour, 0.8, 1.5⟩ .contour p q
  else return []

/-! ### Curves, dots and arrows -/

def curve : Except Fault (List (Item α)) := do
  let v := s.view
  let stretches ← Sampling.curve s.samples.scalar v.xMin v.xMax (PlaneView.spanY v)
    (← s.detail.curveSteps) (some 1e6)
  stretches.flatMapM fun stretch => do
    let points ← stretch.mapM fun (x, y) => return some (← s.pixel x y)
    s.canvas.path ⟨s.palette.curve, 1.0, 3.0⟩ .curve points

/-- The vertices of `count` cells in each direction of the window. -/
def sites (count : Int) : Except Fault (List (Point α)) :=
  if count < 0 then .ok []
  else do
    let v := s.view
    let total ← Scalar.ofInt? count
    let indices := List.range (count.toNat + 1)
    indices.flatMapM fun i => indices.mapM fun j => do
      let x := v.xMin + (← Scalar.divide (PlaneView.spanX v * Scalar.ofNat i) total)
      let y := v.yMin + (← Scalar.divide (PlaneView.spanY v * Scalar.ofNat j) total)
      return ⟨x, y, 0.0⟩

/-- What `f` yields at the sites, with the sites. -/
def readings (f : Point α → Except Fault (Option α)) (count : Int) :
    Except Fault (List (Sampling.Reading α)) := do
  Sampling.collect (fun p => return (← f p).map (Sampling.Reading.mk p)) (← s.sites count)

def shortSide : α :=
  Scalar.smaller s.canvas.width s.canvas.height

def dots (lo hi : α) (count : Int) (readings : List (Sampling.Reading α)) :
    Except Fault (List (Item α)) := do
  let radius := (← Scalar.divide s.shortSide (← Scalar.ofInt? count)) / 3.0
  let circles ← readings.mapM fun r => do
    let colour ← s.palette.jet (← normalise r.value lo hi)
    let centre ← s.pixel r.position.x r.position.y
    return ⟨.circle centre radius ⟨colour, 0.8⟩, ⟨colour, 0.0, 0.0⟩, .field, 0.0⟩
  return circles ++ (if s.request.surfaceMode = .none then s.colourBar lo hi else [])

def scalarDots : Except Fault (List (Item α)) := do
  let count ← s.detail.planeDots
  let readings ← s.readings s.samples.scalar count
  match Sampling.readingRange readings with
  | none => return []
  | some (lo, hi) =>
    let (lo, hi) := widen lo hi
    s.dots lo hi count readings

def magnitudeDots : Except Fault (List (Item α)) := do
  let count ← s.detail.planeDots
  let readings ← s.readings (fun p => return (← s.samples.vector p).magnitude?) count
  match Sampling.readingRange readings with
  | none => return []
  | some (_, hi) => s.dots 0.0 (nonzero hi) count readings

/-- An arrow of fixed length, coloured by its share of the largest magnitude. -/
def arrow (length largest : α) (p : Point α) (v : Vec (Option α)) : Except Fault (List (Item α)) := do
  match v.restrict? s.request.surfaceMode with
  | none => return []
  | some (w, magnitude, _) =>
    if magnitude < Vec.threshold then return []
    else
      let colour ← s.palette.jet (← Scalar.divide magnitude largest)
      let start ← s.pixel p.x p.y
      let tip : Pixel α :=
        ⟨start.x + (← Scalar.divide w.x magnitude) * length,
          start.y - (← Scalar.divide w.y magnitude) * length⟩
      let shaft ← s.canvas.line ⟨colour, 1.0, 2.0⟩ .arrow 0.0 (some start) (some tip)
      if tip.same start then return shaft
      else
        let angle := Scalar.atan2 (tip.y - start.y) (tip.x - start.x)
        return shaft ++ (← s.canvas.arrowHead colour 0.0 tip 6.0 angle)

def arrows : Except Fault (List (Item α)) := do
  let count ← s.detail.planeArrows
  let length ← Scalar.divide s.shortSide (← Scalar.ofInt? count)
  let samples ← (← s.sites count).mapM fun p => return (p, ← s.samples.vector p)
  let magnitudes := samples.filterMap fun (_, v) => v.magnitude?
  let largest := nonzero ((Scalar.largest? magnitudes).getD 0.0)
  let items ← samples.flatMapM fun (p, v) => s.arrow length largest p v
  return items ++ (if s.request.surfaceMode = .none then s.colourBar 0.0 largest else [])

/-! ### The whole scene -/

def content : Except Fault (List (Item α)) :=
  match s.request.plotMode, s.request.field.isSome with
  | .field, true => s.magnitudeDots
  | .field, false => s.scalarDots
  | .function, true => s.arrows
  | .function, false => s.curve

def build : Except Fault (List (Item α)) := do
  let grid ← s.grid
  let axes ← s.axes
  let heatmap ← if s.request.surfaceMode ≠ .none then s.heatmap else .ok []
  let content ← s.content
  let contours ← if s.request.showContour then s.contours else .ok []
  let labels ← s.labels
  return grid ++ axes ++ heatmap ++ content ++ contours ++ labels

end PlaneScene

end FieldPlot.Scene
