import FieldPlot.Geometry.Clip
import FieldPlot.Scene.Item
import FieldPlot.Scene.Label
import FieldPlot.Scene.Palette

/-!
Emitting items onto a canvas. Everything made of segments is clipped to the canvas here; an end that
has no image is given as none and takes its segment with it.
-/

namespace FieldPlot.Scene

structure Canvas (α : Type) where
  width : α
  height : α

namespace Canvas

variable {α : Type} [Scalar α]

/-- A canvas of at least one pixel in each direction. -/
def ofSize (width height : α) : Canvas α :=
  ⟨Scalar.larger 1.0 width, Scalar.larger 1.0 height⟩

def rect (c : Canvas α) : Rect α :=
  Rect.ofSize c.width c.height

/-- The canvas with a margin around it. -/
def around (c : Canvas α) (margin : α) : Rect α :=
  ⟨-margin, -margin, c.width + margin, c.height + margin⟩

/-- The visible part of a segment. -/
def visible? (c : Canvas α) (a b : Option (Pixel α)) : Except Fault (Option (Pixel α × Pixel α)) :=
  match a, b with
  | some a, some b => c.rect.clip a b
  | _, _ => .ok none

def line (c : Canvas α) (stroke : Stroke α) (role : Role) (depth : α) (a b : Option (Pixel α)) :
    Except Fault (List (Item α)) := do
  match ← c.visible? a b with
  | some (a, b) => return [⟨.line a b, stroke, role, depth⟩]
  | none => return []

/-- Joins the visible parts of consecutive segments. Two parts are joined where the first ends at the
start of the second; a segment without a visible part separates its neighbours. -/
def stitch : List (Option (Pixel α × Pixel α)) → List (List (Pixel α))
  | [] => []
  | none :: parts => stitch parts
  | some (a, b) :: parts =>
    let runs := stitch parts
    match parts, runs with
    | some (c, _) :: _, (_ :: run) :: others =>
      if b.same c then (a :: b :: run) :: others else [a, b] :: runs
    | _, _ => [a, b] :: runs

/-- The visible stretches of a path. -/
def path (c : Canvas α) (stroke : Stroke α) (role : Role) (points : List (Option (Pixel α))) :
    Except Fault (List (Item α)) := do
  let parts ← (points.zip points.tail).mapM fun (a, b) => c.visible? a b
  return (stitch parts).map fun run => ⟨.polyline run, stroke, role, 0.0⟩

def text (colour : List Char) (font : Font α) (role : Role) (position : Pixel α)
    (content : List Char) : Item α :=
  ⟨.text position content font, ⟨colour, 1.0, 1.0⟩, role, 0.0⟩

/-- One side of an arrow head. -/
def barb (c : Canvas α) (colour : List Char) (depth : α) (tip : Pixel α) (length angle : α) :
    Except Fault (List (Item α)) := do
  let (x, y) ← Scalar.turn angle
  c.line ⟨colour, 1.0, 2.0⟩ .arrow depth (some tip) (some ⟨tip.x - length * x, tip.y - length * y⟩)

/-- The two sides of an arrow head that points in direction `angle`. -/
def arrowHead (c : Canvas α) (colour : List Char) (depth : α) (tip : Pixel α) (length angle : α) :
    Except Fault (List (Item α)) := do
  return (← c.barb colour depth tip length (angle + 0.5)) ++
    (← c.barb colour depth tip length (angle - 0.5))

/-- The scale of the jet gradient with its ends labelled; none for ends that are not finite. -/
def colourBar (c : Canvas α) (palette : Palette α) (shown : Bool) (lo hi : α) : List (Item α) :=
  if shown && Scalar.isFinite lo && Scalar.isFinite hi then
    let left : α := 10.0
    let top := c.height / 2.0 - 100.0 / 2.0
    let right := left + 15.0
    let bottom := top + 100.0
    let font : Font α := ⟨10.0, false, .topLeft⟩
    let scale : Shape α := .colourBar ⟨left, top⟩ ⟨right, bottom⟩ palette.jetText
    [⟨scale, ⟨palette.label, 0.6, 1.0⟩, .colourBar, 0.0⟩,
      text palette.label font .colourBar ⟨right + 4.0, top - 4.0⟩ (numberLabel hi),
      text palette.label font .colourBar ⟨right + 4.0, bottom - 6.0⟩ (numberLabel lo)]
  else []

end Canvas

end FieldPlot.Scene
