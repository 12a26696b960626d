import FieldPlot.Geometry.Point
import FieldPlot.Settings.Value

/-!
The axes a zoom acts on, and the choice of one by the place of the cursor.
-/

namespace FieldPlot.View

open Settings (Value)

inductive ZoomAxis
  | free | x | y | z
deriving DecidableEq, Repr

namespace ZoomAxis

def name : ZoomAxis → String
  | free => "free"
  | x => "x"
  | y => "y"
  | z => "z"

def all : List ZoomAxis :=
  [free, x, y, z]

variable {α : Type} [Scalar α]

/-- The axis that a setting names. -/
def ofValue (v : Value α) : Except Fault ZoomAxis :=
  let found := match v with
    | .text s => all.find? (·.name = s)
    | _ => none
  match found with
  | some axis => .ok axis
  | none => .error (.unknownChoice .zoomAxis v.shown)

/-- The axis of a zoom in the plane: the selected one, or else the one whose margin of width `zone`
the cursor is in. In both margins, or in none, the zoom is free. -/
def detect (cursor : Pixel α) (height zone : α) : ZoomAxis → ZoomAxis
  | free =>
    let nearX : Bool := height - zone < cursor.y
    let nearY : Bool := cursor.x < zone
    if nearX && !nearY then x else if nearY && !nearX then y else free
  | selected => selected

/-- Whether a zoom by this factor does anything. -/
def isEffective (factor : α) : Bool :=
  0.0 < factor && !(Scalar.abs (factor - 1.0) ≤ 1e-3)

end ZoomAxis

end FieldPlot.View
