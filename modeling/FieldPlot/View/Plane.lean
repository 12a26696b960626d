import FieldPlot.Geometry.Point
import FieldPlot.Sampling.Grid
import FieldPlot.Settings.Defaults
import FieldPlot.View.ZoomAxis

/-!
The view of a plot in the plane: a window of model space that fills the canvas, whose rows count
downwards while the model's ordinates go up.
-/

namespace FieldPlot.View

open Sampling (Window)
open Settings (Value Table)

/-- The view in the plane is the window it shows. -/
abbrev PlaneView (α : Type) := Window α

namespace PlaneView

variable {α : Type} [Scalar α]

def number (t : Table α) (key : String) : Except Fault α :=
  ((t.get? key).getD .null).toReal

def ofTable (t : Table α) : Except Fault (PlaneView α) := do
  return {
    xMin := ← number t "xMin"
    xMax := ← number t "xMax"
    yMin := ← number t "yMin"
    yMax := ← number t "yMax" }

/-- The view of a settings section, whose missing keys keep their defaults. -/
def ofValue (v : Value α) : Except Fault (PlaneView α) := do
  ofTable (Settings.planeDefaults.update (← v.entries))

/-- The view a plot starts with. -/
def initial : PlaneView α :=
  ⟨-5.0, 5.0, -5.0, 5.0⟩

def toTable (v : PlaneView α) : Table α :=
  [("xMin", .real v.xMin), ("xMax", .real v.xMax), ("yMin", .real v.yMin), ("yMax", .real v.yMax)]

def spanX (v : PlaneView α) : α :=
  v.xMax - v.xMin

def spanY (v : PlaneView α) : α :=
  v.yMax - v.yMin

/-- The place of a model point on a canvas of that size. -/
def toScreen (v : PlaneView α) (width height : α) (x y : α) : Except Fault (Pixel α) := do
  return ⟨(← Scalar.divide (x - v.xMin) v.spanX) * width,
    height - (← Scalar.divide (y - v.yMin) v.spanY) * height⟩

/-- The model point at a place of the canvas. -/
def toModel (v : PlaneView α) (width height : α) (p : Pixel α) : Except Fault (α × α) := do
  return (v.xMin + (← Scalar.divide p.x width) * v.spanX,
    v.yMax - (← Scalar.divide p.y height) * v.spanY)

/-- Drags the content by that many pixels. -/
def panBy (dx dy width height : α) (v : PlaneView α) : Except Fault (PlaneView α) := do
  let shiftX ← Scalar.divide (-dx * v.spanX) width
  let shiftY ← Scalar.divide (dy * v.spanY) height
  return ⟨v.xMin + shiftX, v.xMax + shiftX, v.yMin + shiftY, v.yMax + shiftY⟩

def centre (v : PlaneView α) : α × α :=
  ((v.xMin + v.xMax) / 2.0, (v.yMin + v.yMax) / 2.0)

def zoomX (factor focus : α) (v : PlaneView α) : PlaneView α :=
  { v with
    xMin := focus - (focus - v.xMin) / factor
    xMax := focus + (v.xMax - focus) / factor }

def zoomY (factor focus : α) (v : PlaneView α) : PlaneView α :=
  { v with
    yMin := focus - (focus - v.yMin) / factor
    yMax := focus + (v.yMax - focus) / factor }

/-- Zooms about a fixed point, by default the centre. The value axis of the plane is y. -/
def zoom (factor : α) (axis : Except Fault ZoomAxis) (focus : Option (α × α)) (v : PlaneView α) :
    Except Fault (PlaneView α) :=
  if ZoomAxis.isEffective factor then do
    let (x, y) := focus.getD v.centre
    match ← axis with
    | .free => return (v.zoomX factor x).zoomY factor y
    | .x => return v.zoomX factor x
    | .y | .z => return v.zoomY factor y
  else .ok v

end PlaneView

end FieldPlot.View
