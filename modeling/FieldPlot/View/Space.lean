import FieldPlot.Geometry.Projection
import FieldPlot.Sampling.Grid
import FieldPlot.Settings.Defaults
import FieldPlot.Step
import FieldPlot.View.ZoomAxis

/-!
The view of a plot in space: the rotation of the scene, the visible ranges, the shift of its centre
and the limits that gestures respect.
-/

namespace FieldPlot.View

open Settings (Value Table)

structure SpaceView (α : Type) where
  rotationX : α
  rotationZ : α
  rangeX : α
  rangeY : α
  rangeZ : α
  panX : α
  panY : α
  focalLength : α
  minRange : α
  maxRange : α
  rotateSpeed : α
deriving Repr

namespace SpaceView

variable {α : Type} [Scalar α]

/-- A setting of a table as a number. -/
def number (t : Table α) (key : String) : Except Fault α :=
  ((t.get? key).getD .null).toReal

def ofTable (t : Table α) : Except Fault (SpaceView α) := do
  return {
    rotationX := ← number t "rotationX"
    rotationZ := ← number t "rotationZ"
    rangeX := ← number t "rangeX"
    rangeY := ← number t "rangeY"
    rangeZ := ← number t "rangeZ"
    panX := ← number t "panX"
    panY := ← number t "panY"
    focalLength := ← number t "focalLength"
    minRange := ← number t "minRange"
    maxRange := ← number t "maxRange"
    rotateSpeed := ← number t "rotateSpeed" }

/-- The view of a settings section, whose missing keys keep their defaults. -/
def ofValue (v : Value α) : Except Fault (SpaceView α) := do
  ofTable (Settings.spaceDefaults.update (← v.entries))

/-- The view a plot starts with. -/
def initial : SpaceView α :=
  { rotationX := 0.6, rotationZ := 0.8, rangeX := 5.0, rangeY := 5.0, rangeZ := 5.0, panX := 0.0,
    panY := 0.0, focalLength := 500.0, minRange := 1.0, maxRange := 50.0, rotateSpeed := 0.01 }

/-- The settings that follow the gestures. -/
def toTable (v : SpaceView α) : Table α :=
  [("rotationX", .real v.rotationX), ("rotationZ", .real v.rotationZ), ("rangeX", .real v.rangeX),
    ("rangeY", .real v.rangeY), ("rangeZ", .real v.rangeZ), ("panX", .real v.panX),
    ("panY", .real v.panY)]

/-- The domain and value range that the view shows. -/
def extent (v : SpaceView α) : Sampling.Extent α :=
  ⟨v.rangeX, v.rangeY, v.rangeZ⟩

/-- What the view is seen through on a canvas of that size. -/
def lens (v : SpaceView α) (width height : α) : Lens α :=
  ⟨v.focalLength, width, height, v.panX, v.panY⟩

/-- Scene units for each model unit: every range is 200 scene units long. -/
def scales (v : SpaceView α) : Except Fault (Point α) := do
  return ⟨← Scalar.divide 200.0 v.rangeX, ← Scalar.divide 200.0 v.rangeY,
    ← Scalar.divide 200.0 v.rangeZ⟩

/-- The largest elevation, a tenth short of a right angle. -/
def maxElevation : α :=
  Scalar.pi / 2.0 - 0.1

def rotate (dx dy : α) (v : SpaceView α) : SpaceView α :=
  { v with
    rotationZ := v.rotationZ + dx * v.rotateSpeed
    rotationX := Scalar.clamp (v.rotationX + dy * v.rotateSpeed) (-maxElevation) maxElevation }

def panBy (dx dy : α) (v : SpaceView α) : SpaceView α :=
  { v with panX := v.panX + dx, panY := v.panY + dy }

def clampRange (v : SpaceView α) (range : α) : α :=
  Scalar.clamp range v.minRange v.maxRange

def zoomX (factor : α) (v : SpaceView α) : SpaceView α :=
  { v with rangeX := v.clampRange (v.rangeX / factor) }

def zoomY (factor : α) (v : SpaceView α) : SpaceView α :=
  { v with rangeY := v.clampRange (v.rangeY / factor) }

def zoomZ (factor : α) (v : SpaceView α) : SpaceView α :=
  { v with rangeZ := v.clampRange (v.rangeZ / factor) }

/-- Zooms the floor along an axis. -/
def zoomFloor (factor : α) (axis : ZoomAxis) (v : SpaceView α) : SpaceView α :=
  match axis with
  | .free => (v.zoomX factor).zoomY factor
  | .x => v.zoomX factor
  | .y => v.zoomY factor
  | .z => v

/-- Zooms in by a factor above 1 or out by one below. A zoom of the floor takes the value range from
`autoZ`; where that has none, a free zoom takes the mean of the other two. -/
def zoom (factor : α) (axis : Except Fault ZoomAxis) (autoZ : α → α → Except Fault (Option α))
    (v : SpaceView α) : Step (SpaceView α) :=
  if ZoomAxis.isEffective factor then
    match axis with
    | .error f => .failed v f
    | .ok .z => .done (v.zoomZ factor)
    | .ok axis =>
      let w := v.zoomFloor factor axis
      match autoZ w.rangeX w.rangeY with
      | .error f => .failed w f
      | .ok (some range) => .done { w with rangeZ := range }
      | .ok none =>
        .done (if axis = .free then { w with rangeZ := (w.rangeX + w.rangeY) / 2.0 } else w)
  else .done v

end SpaceView

end FieldPlot.View
