import FieldPlot.Request
import FieldPlot.Sampling.Contour
import FieldPlot.Sampling.Curve
import FieldPlot.Scene.Canvas
import FieldPlot.Scene.Detail
import FieldPlot.Scene.Quad

/-!
The scene of a plot in space. The frame comes first: floor grid, axes with their ticks, and the
boundary of the floor. The content follows, its surfaces and marks painted from the farthest to the
nearest, and iso-lines after the surface they lie on.
-/

namespace FieldPlot.Scene

open Vectors (Axis SurfaceMode)
open Sampling (Grid Reading Arrow)
open View (SpaceView)

/-- Everything a plot in space is built from. -/
structure SpaceScene (α : Type) where
  request : Request
  samples : Request.Samples α
  view : SpaceView α
  palette : Palette α
  detail : Detail
  canvas : Canvas α

namespace SpaceScene

variable {α : Type} [Scalar α] (s : SpaceScene α)

/-- A point in scene units, rotated and projected. -/
def place (p : Point α) : Except Fault (Placed α) :=
  Scene.place s.view s.canvas.width s.canvas.height p

/-- A point in model units, rotated and projected. -/
def placeModel (p : Point α) : Except Fault (Placed α) := do
  let scale ← s.view.scales
  s.place ⟨p.x * scale.x, p.y * scale.y, p.z * scale.z⟩

/-- A line between two model points. -/
def modelLine (stroke : Stroke α) (role : Role) (p q : Point α) : Except Fault (List (Item α)) := do
  let a ← s.placeModel p
  let b ← s.placeModel q
  s.canvas.line stroke role 0.0 a.image b.image

def colourBar (lo hi : α) : List (Item α) :=
  s.canvas.colourBar s.palette s.request.showColorbar lo hi

/-! ### The frame -/

/-- The floor lines with a spacing: those along y, then those along x. -/
def floorLines (stroke : Stroke α) (role : Role) (spacingX spacingY : α) :
    Except Fault (List (Item α)) := do
  let rx := s.view.rangeX
  let ry := s.view.rangeY
  let along ← (← Sampling.steps (-rx) rx spacingX).flatMapM fun x =>
    s.modelLine stroke role ⟨x, -ry, 0.0⟩ ⟨x, ry, 0.0⟩
  let across ← (← Sampling.steps (-ry) ry spacingY).flatMapM fun y =>
    s.modelLine stroke role ⟨-rx, y, 0.0⟩ ⟨rx, y, 0.0⟩
  return along ++ across

def floorGrid : Except Fault (List (Item α)) := do
  let spacingX ← Sampling.floorSpacing s.view.rangeX
  let spacingY ← Sampling.floorSpacing s.view.rangeY
  let fine ← s.floorLines ⟨s.palette.grid, 0.12, 0.8⟩ .subgrid (spacingX / 5.0) (spacingY / 5.0)
  let coarse ← s.floorLines ⟨s.palette.grid, 0.25, 1.2⟩ .grid (spacingX / 1.0) (spacingY / 1.0)
  return fine ++ coarse

/-- The vector of length 1 along an axis. -/
def unitVector : Axis → Point α
  | .x => ⟨1.0, 0.0, 0.0⟩
  | .y => ⟨0.0, 1.0, 0.0⟩
  | .z => ⟨0.0, 0.0, 1.0⟩

/-- The scene point of an axis at `a` scene units. -/
def onAxis (axis : Axis) (a : α) : Point α :=
  let u : Point α := unitVector axis
  ⟨u.x * a, u.y * a, u.z * a⟩

/-- The scene point at the other end of an axis. -/
def onAxisBack (axis : Axis) (a : α) : Point α :=
  let u : Point α := unitVector axis
  ⟨-u.x * a, -u.y * a, -u.z * a⟩

def axisName : Axis → List Char
  | .x => ['X']
  | .y => ['Y']
  | .z => ['Z']

def axisColour : Axis → List Char
  | .x => s.palette.axisX
  | .y => s.palette.axisY
  | .z => s.palette.axisZ

def axisExtent : Axis → α
  | .x => s.view.rangeX
  | .y => s.view.rangeY
  | .z => s.view.rangeZ

def axisScale (scale : Point α) : Axis → α
  | .x => scale.x
  | .y => scale.y
  | .z => scale.z

/-- The far ends of the two strokes of a tick at `a` scene units. -/
def tickEnds (a : α) : Axis → List (Point α)
  | .x => [⟨a, 5.0, 0.0⟩, ⟨a, 0.0, 5.0⟩]
  | .y => [⟨5.0, a, 0.0⟩, ⟨0.0, a, 5.0⟩]
  | .z => [⟨5.0, 0.0, a⟩, ⟨0.0, 5.0, a⟩]

/-- The centre of the number beside a tick. -/
def tickLabelPoint (a : α) : Axis → Point α
  | .x => ⟨a, -15.0, -10.0⟩
  | .y => ⟨-15.0, a, -10.0⟩
  | .z => ⟨-15.0, -15.0, a⟩

/-- The head of an axis arrow that leads from `origin` to `tip`. -/
def axisHead (colour : List Char) (origin tip : Pixel α) : Except Fault (List (Item α)) := do
  let dx := tip.x - origin.x
  let dy := tip.y - origin.y
  let length := Scalar.hypot dx dy
  if 0.0 < length then
    let ux ← Scalar.divide dx length
    let uy ← Scalar.divide dy length
    let px := -uy
    let py := ux
    let size : α := 10.0
    let left : Pixel α :=
      ⟨tip.x - ux * size + px * size / 2.0, tip.y - uy * size + py * size / 2.0⟩
    let right : Pixel α :=
      ⟨tip.x - ux * size - px * size / 2.0, tip.y - uy * size - py * size / 2.0⟩
    s.canvas.path ⟨colour, 0.8, 2.0⟩ .axis [some left, some tip, some right]
  else return []

/-- The tip of an axis with its name, if it is near the canvas. -/
def axisTip (axis : Axis) (origin tip : Option (Pixel α)) : Except Fault (List (Item α)) := do
  match origin, tip with
  | some origin, some tip =>
    if (s.canvas.around 20.0).contains tip then
      let colour := s.axisColour axis
      let head ← s.axisHead colour origin tip
      return head ++ [Canvas.text colour ⟨16.0, true, .topLeft⟩ .axisLabel ⟨tip.x + 8.0, tip.y - 8.0⟩
        (axisName axis)]
    else return []
  | _, _ => return []

/-- A tick with its number, if its foot is on the canvas. -/
def tick (axis : Axis) (scale t : α) : Except Fault (List (Item α)) := do
  let a := t * scale
  let foot ← s.place (onAxis axis a)
  if foot.image.any s.canvas.rect.contains then
    let strokes ← (tickEnds a axis).flatMapM fun tip => do
      s.canvas.line ⟨s.palette.label, 0.5, 1.0⟩ .tick 0.0 foot.image (← s.place tip).image
    match (← s.place (tickLabelPoint a axis)).image with
    | some position =>
      if s.canvas.rect.contains position then
        return strokes ++
          [Canvas.text s.palette.label ⟨10.0, false, .centre⟩ .label position (numberLabel t)]
      else return strokes
    | none => return strokes
  else return []

def axis (scale : Point α) (origin : Option (Pixel α)) (axis : Axis) :
    Except Fault (List (Item α)) := do
  let colour := s.axisColour axis
  let extent := s.axisExtent axis
  let unit := axisScale scale axis
  let far := extent * 2.0 * unit
  let back ← s.place (onAxisBack axis far)
  let front ← s.place (onAxis axis far)
  let glow ← s.canvas.line ⟨colour, 0.35, 6.0⟩ .axisGlow 0.0 back.image front.image
  let core ← s.canvas.line ⟨colour, 0.8, 2.0⟩ .axis 0.0 back.image front.image
  let tip ← s.axisTip axis origin (← s.place (onAxis axis (extent * 0.9 * unit))).image
  let spacing ← Sampling.floorSpacing extent
  let ticks ← (← Sampling.steps (-extent) extent spacing).flatMapM fun t =>
    if Scalar.abs t < spacing * 0.1 then return [] else s.tick axis unit t
  return glow ++ core ++ tip ++ ticks

def axes : Except Fault (List (Item α)) := do
  let scale ← s.view.scales
  let origin ← s.placeModel ⟨0.0, 0.0, 0.0⟩
  Axis.all.flatMapM (s.axis scale origin.image)

def boundary : Except Fault (List (Item α)) := do
  let rx := s.view.rangeX
  let ry := s.view.rangeY
  let a ← s.placeModel ⟨-rx, -ry, 0.0⟩
  let b ← s.placeModel ⟨rx, -ry, 0.0⟩
  let c ← s.placeModel ⟨rx, ry, 0.0⟩
  let d ← s.placeModel ⟨-rx, ry, 0.0⟩
  [(a, b), (b, c), (c, d), (d, a)].flatMapM fun (p, q) =>
    s.canvas.line ⟨s.palette.label, 0.5, 2.0⟩ .boundary 0.0 p.image q.image

/-! ### Surfaces and iso-lines -/

/-- The colour of a cell: its value within the sampled range, or its height within the view. -/
def cellColour (jet : Bool) (lo hi value : α) : Except Fault (List Char) := do
  if jet then s.palette.jet (← normalise value lo hi)
  else
    let rz := s.view.rangeZ
    s.palette.surface (Scalar.clampUnit (← Scalar.divide (value + rz) (2.0 * rz)))

def paintQuads (jet : Bool) (lo hi : α) (quads : List (Quad α)) : Except Fault (List (Item α)) := do
  let opacity ← if jet then s.palette.jetSurfaceOpacity else s.palette.surfaceOpacity
  (sortQuads quads).mapM fun quad => do
    let fill : Fill α := ⟨← s.cellColour jet lo hi quad.value, opacity⟩
    return ⟨.polygon quad.corners fill, ⟨s.palette.grid, 0.15, 0.5⟩, .surface, quad.depth⟩

/-- A range of values that is not empty. -/
def widen (lo hi : α) : α × α :=
  if hi == lo then (lo, lo + 1.0) else (lo, hi)

def gridQuads (grid : Grid α) : Except Fault (List (Quad α)) :=
  quads grid s.view s.canvas.width s.canvas.height

def scalarGrid : Except Fault (Grid α) := do
  Sampling.surface s.samples.scalar s.view.extent (← s.detail.surfaceGrid)

def surface (jet : Bool) (grid : Grid α) : Except Fault (List (Item α)) := do
  let cells ← s.gridQuads grid
  let (lo, hi) := grid.valueRange.getD (0.0, 1.0)
  let (lo, hi) := widen lo hi
  let painted ← s.paintQuads jet lo hi cells
  return painted ++ (if jet then s.colourBar lo hi else [])

def vectorGrid : Except Fault (Grid α) := do
  Sampling.vectorSurface s.samples.vector s.request.surfaceMode s.view.extent (← s.detail.surfaceGrid)

def vectorSurface (grid : Grid α) : Except Fault (List (Item α)) := do
  let (lo, hi) := grid.valueRange.getD (0.0, 1.0)
  let (lo, hi) := widen (if s.request.surfaceMode = .magnitude then 0.0 else lo) hi
  let painted ← s.paintQuads true lo hi (← s.gridQuads grid)
  return painted ++ s.colourBar lo hi

/-- The height of a mesh for each unit of the sampled value. -/
def heightFactor (grid : Grid α) : Except Fault α :=
  if 0.0 < grid.peak then Scalar.divide grid.peakHeight grid.peak else .ok 1.0

/-- The iso-line of one level, at height `z`. -/
def isoLine (stroke : Stroke α) (grid : Grid α) (level z : α) : Except Fault (List (Item α)) := do
  (← grid.contour level).flatMapM fun (p, q) =>
    s.modelLine stroke .contour ⟨p.1, p.2, z⟩ ⟨q.1, q.2, z⟩

/-- Iso-lines on the surface of a grid, or on the floor. -/
def contours (onSurface : Bool) (count : Int) (width opacity : α) (grid : Grid α) :
    Except Fault (List (Item α)) := do
  match grid.valueRange with
  | none => return []
  | some (lo, hi) =>
    let levels ← Sampling.contourLevels lo hi count
    let factor ← if onSurface then heightFactor grid else .ok 1.0
    levels.flatMapM fun level => do
      let colour ← s.palette.jet (← normalise level lo hi)
      s.isoLine ⟨colour, opacity, width⟩ grid level (if onSurface then level * factor else 0.0)

/-! ### Curves -/

/-- A line from a sample of the curve down to the axis, at every `every`-th sample. -/
def dropLine (steps every : Int) (x value : α) : Except Fault (List (Item α)) := do
  let span := 2.0 * s.view.rangeX
  let index ← Scalar.round? ((← Scalar.divide (x + s.view.rangeX) span) * Scalar.ofInt steps)
  if every = 0 then throw .divisionByZero
  else if index % every = 0 then
    s.modelLine ⟨s.palette.curve, 0.12, 1.0⟩ .dropline ⟨x, 0.0, value⟩ ⟨x, 0.0, 0.0⟩
  else return []

/-- A function of x alone stands on the axis, with its shadow on the floor. -/
def standingCurve : Except Fault (List (Item α)) := do
  let v := s.view
  let steps ← s.detail.standingCurveSteps
  let every ← s.detail.dropLineEvery
  let stretches ← Sampling.curve s.samples.scalar (-v.rangeX) v.rangeX v.rangeZ steps (some v.rangeZ)
  let drops ← stretches.flatMapM fun stretch => stretch.flatMapM fun (x, value) =>
    s.dropLine steps every x value
  let shadows ← stretches.flatMapM fun stretch => do
    let points ← stretch.mapM fun (x, _) => return (← s.placeModel ⟨x, 0.0, 0.0⟩).image
    s.canvas.path ⟨s.palette.curve, 0.2, 2.0⟩ .shadow points
  let curves ← stretches.flatMapM fun stretch => do
    let points ← stretch.mapM fun (x, value) => return (← s.placeModel ⟨x, 0.0, value⟩).image
    s.canvas.path ⟨s.palette.curve, 1.0, 3.0⟩ .curve points
  return drops ++ shadows ++ curves

/-! ### Fields -/

/-- A coloured ball and the light on it, smaller with the distance. -/
def dot (lo hi : α) (placed : Placed α) (value : α) : Except Fault (List (Item α)) := do
  match placed.image with
  | none => return []
  | some centre =>
    if s.canvas.rect.contains centre then
      let depth := placed.point.y
      let radius ← Scalar.divide (6.0 * s.view.focalLength) (s.view.focalLength + depth)
      let colour ← s.palette.jet (← normalise value lo hi)
      let label := s.palette.label
      let shine : Pixel α := ⟨centre.x - radius * 0.3, centre.y - radius * 0.3⟩
      return [⟨.circle centre radius ⟨colour, 0.8⟩, ⟨colour, 0.0, 0.0⟩, .field, depth⟩,
        ⟨.circle shine (radius * 0.3) ⟨label, 0.25⟩, ⟨label, 0.0, 0.0⟩, .field, depth⟩]
    else return []

def dots (lo hi : α) (readings : List (Reading α)) : Except Fault (List (Item α)) := do
  let placed ← readings.mapM fun r => return (← s.placeModel r.position, r.value)
  (farthestFirst (fun entry => entry.1.point.y) placed).flatMapM fun (p, value) => s.dot lo hi p value

def scalarField : Except Fault (List (Item α)) := do
  let readings ← Sampling.scalarField s.samples.scalar s.view.extent (← s.detail.fieldLattice)
  match Sampling.readingRange readings with
  | none => return []
  | some (lo, hi) =>
    let (lo, hi) := widen lo hi
    return (← s.dots lo hi readings) ++ s.colourBar lo hi

def magnitudeField : Except Fault (List (Item α)) := do
  let readings ← Sampling.fieldMagnitudes s.samples.vector s.request.spatial s.view.extent
    (← s.detail.magnitudeLattice)
  match Sampling.readingRange readings with
  | none => return []
  | some (_, hi) =>
    if hi == 0.0 then return []
    else return (← s.dots 0.0 hi readings) ++ s.colourBar 0.0 hi

/-- An arrow with its start in scene units. -/
structure PlacedArrow (α : Type) where
  arrow : Arrow α
  start : Point α
  placed : Placed α

def placeArrow (scale : Point α) (onSurface : Bool) (heightScale : α) (arrow : Arrow α) :
    Except Fault (PlacedArrow α) := do
  let z := if onSurface then arrow.surfaceValue * heightScale else arrow.start.z
  let start : Point α := ⟨arrow.start.x * scale.x, arrow.start.y * scale.y, z * scale.z⟩
  return ⟨arrow, start, ← s.place start⟩

/-- Arrows on the surface they belong to, whose largest height is `peak`, or where they were sampled. -/
def placeArrows (peak : α) (arrows : List (Arrow α)) : Except Fault (List (PlacedArrow α)) := do
  let onSurface : Bool := s.request.surfaceMode ≠ .none && !s.request.spatial
  let heightScale ←
    if onSurface && 0.0 < peak then Scalar.divide s.view.rangeZ peak else .ok 0.0
  let scale ← s.view.scales
  arrows.mapM (s.placeArrow scale onSurface heightScale)

/-- An arrow of fixed length in the scene, coloured by its magnitude. -/
def arrow (largest : α) (a : PlacedArrow α) : Except Fault (List (Item α)) := do
  match a.placed.image with
  | none => return []
  | some start =>
    if (s.canvas.around 50.0).contains start then
      let depth := a.placed.point.y
      let d := a.arrow.direction
      let tip ← s.place
        ⟨a.start.x + d.x * 15.0, a.start.y + d.y * 15.0, a.start.z + d.z * 15.0⟩
      let colour ← s.palette.jet (← Scalar.divide a.arrow.magnitude largest)
      let shaft ← s.canvas.line ⟨colour, 1.0, 2.0⟩ .arrow depth (some start) tip.image
      match tip.image with
      | none => return shaft
      | some tip =>
        let ux := tip.x - start.x
        let uy := tip.y - start.y
        if 0.0 < Scalar.hypot ux uy then
          return shaft ++ (← s.canvas.arrowHead colour depth tip 5.0 (Scalar.atan2 uy ux))
        else return shaft
    else return []

def vectorArrows : Except Fault (List (Item α)) := do
  let r := s.request
  let arrows ← Sampling.arrows s.samples.vector r.spatial r.surfaceMode s.view.extent
    (← s.detail.spaceArrows)
  match Scalar.largest? (arrows.map (·.magnitude)),
      Scalar.largest? (arrows.map fun a => Scalar.abs a.surfaceValue) with
  | some largest, some peak =>
    let placed ← s.placeArrows peak arrows
    let items ← (farthestFirst (fun a => a.placed.point.y) placed).flatMapM (s.arrow largest)
    return items ++ (if r.surfaceMode = .none then s.colourBar 0.0 largest else [])
  | _, _ => return []

/-! ### The whole scene -/

def vectorContent : Except Fault (List (Item α)) := do
  let r := s.request
  if r.surfaceMode ≠ .none && !r.spatial then
    let grid ← s.vectorGrid
    let surface ← s.vectorSurface grid
    let contours ← if r.showContour then s.contours true 12 1.5 0.8 grid else .ok []
    let arrows ← if r.plotMode = .function then s.vectorArrows else .ok []
    return surface ++ contours ++ arrows
  else if r.plotMode = .field then s.magnitudeField
  else s.vectorArrows

def functionContent : Except Fault (List (Item α)) := do
  let r := s.request
  if r.plotMode = .field && r.surfaceMode = .none then
    let field ← s.scalarField
    let contours ← if r.showContour then do s.contours false 12 1.5 0.8 (← s.scalarGrid) else .ok []
    return field ++ contours
  else
    let grid ← s.scalarGrid
    let surface ← s.surface (r.surfaceMode ≠ .none) grid
    let contours ←
      if r.showContour then do s.contours true (← s.detail.contourLevels) 2.0 1.0 grid else .ok []
    return surface ++ contours

def content : Except Fault (List (Item α)) :=
  if s.request.field.isSome then s.vectorContent
  else if s.request.spatial then s.functionContent
  else s.standingCurve

/-- What frames the plot. -/
def frame : Except Fault (List (Item α)) := do
  return (← s.floorGrid) ++ (← s.axes) ++ (← s.boundary)

def build : Except Fault (List (Item α)) := do
  return (← s.frame) ++ (← s.content)

end SpaceScene

end FieldPlot.Scene
