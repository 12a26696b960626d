import FieldPlot.Geometry.Point
import FieldPlot.Scalar.Basic

/-!
Rotation of model points and their perspective image. After the rotation `y` is the distance into
the screen; the image shrinks with it, and a point in the plane of the eye has no image.
-/

namespace FieldPlot

variable {α : Type} [Scalar α]

namespace Point

/-- Turns the point about the x axis. -/
def rotateX (angle : α) (p : Point α) : Except Fault (Point α) := do
  let (c, s) ← Scalar.turn angle
  return ⟨p.x, p.y * c - p.z * s, p.y * s + p.z * c⟩

/-- Turns the point about the z axis. -/
def rotateZ (angle : α) (p : Point α) : Except Fault (Point α) := do
  let (c, s) ← Scalar.turn angle
  return ⟨p.x * c - p.y * s, p.x * s + p.y * c, p.z⟩

/-- The elevation is turned first, then the azimuth. -/
def rotated (elevation azimuth : α) (p : Point α) : Except Fault (Point α) := do
  (← p.rotateX elevation).rotateZ azimuth

end Point

namespace Pixel

def isFinite (p : Pixel α) : Bool :=
  Scalar.isFinite p.x && Scalar.isFinite p.y

/-- Equality of both coordinates. -/
def same (p q : Pixel α) : Bool :=
  p.x == q.x && p.y == q.y

end Pixel

/-- What an image is seen through: the distance of the eye, the canvas and the shift of its centre. -/
structure Lens (α : Type) where
  focalLength : α
  width : α
  height : α
  panX : α
  panY : α

namespace Lens

/-- The image of a rotated point. In the plane of the eye a coordinate is an infinity or NaN. -/
def image (lens : Lens α) (p : Point α) : Pixel α :=
  let scale := lens.focalLength / (lens.focalLength + p.y)
  ⟨lens.width / 2.0 + p.x * scale + lens.panX, lens.height / 2.0 - p.z * scale + lens.panY⟩

/-- The image of a rotated point outside of the plane of the eye, if it is finite. -/
def image? (lens : Lens α) (p : Point α) : Option (Pixel α) :=
  if lens.focalLength + p.y == 0.0 then none
  else
    let q := lens.image p
    if q.isFinite then some q else none

end Lens

end FieldPlot
