import FieldPlot.Geometry.Projection

/-!
Clipping of segments to a rectangle. An end outside of it is moved along the segment to the boundary
line that separates it, until both ends lie inside or both lie beyond the same line. Rounding can lead
back to a segment that has been there before, and then there is no end.
-/

namespace FieldPlot

variable {α : Type} [Scalar α]

structure Rect (α : Type) where
  left : α
  top : α
  right : α
  bottom : α
deriving Repr

namespace Rect

def ofSize (width height : α) : Rect α :=
  ⟨0.0, 0.0, width, height⟩

def width (r : Rect α) : α :=
  r.right - r.left

def height (r : Rect α) : α :=
  r.bottom - r.top

end Rect

/-- Where a coordinate lies relative to the two ends of a range. -/
inductive Band
  | before | within | after
deriving DecidableEq, Repr

def Band.of (a lo hi : α) : Band :=
  if a < lo then before else if hi < a then after else within

/-- Where a point lies relative to a rectangle. -/
structure Region where
  column : Band
  row : Band
deriving DecidableEq, Repr

namespace Region

def of (rect : Rect α) (p : Pixel α) : Region :=
  ⟨Band.of p.x rect.left rect.right, Band.of p.y rect.top rect.bottom⟩

def inside : Region :=
  ⟨.within, .within⟩

/-- Whether one boundary line has both regions on its outer side. -/
def sharesSide (a b : Region) : Bool :=
  (a.column ≠ .within && a.column = b.column) || (a.row ≠ .within && a.row = b.row)

/-- The region as four bits: left, right, bottom and top from the lowest up. -/
def code (r : Region) : Nat :=
  (match r.column with | .before => 1 | .within => 0 | .after => 2) +
    (match r.row with | .before => 8 | .within => 0 | .after => 4)

end Region

namespace Rect

/-- Whether a finite point lies in the rectangle. -/
def contains (rect : Rect α) (p : Pixel α) : Bool :=
  p.isFinite && Region.of rect p = Region.inside

/-- The point with abscissa `x` on the line through `a` and `b`. -/
def crossColumn (a b : Pixel α) (x : α) : Except Fault (Pixel α) := do
  return ⟨x, a.y + (← Scalar.divide ((b.y - a.y) * (x - a.x)) (b.x - a.x))⟩

/-- The point with ordinate `y` on the line through `a` and `b`. -/
def crossRow (a b : Pixel α) (y : α) : Except Fault (Pixel α) := do
  return ⟨a.x + (← Scalar.divide ((b.x - a.x) * (y - a.y)) (b.y - a.y)), y⟩

/-- The point of the line through `a` and `b` on a boundary line beyond which `region` lies. -/
def cross (rect : Rect α) (region : Region) (a b : Pixel α) : Except Fault (Pixel α) :=
  match region.row, region.column with
  | .before, _ => crossRow a b rect.top
  | .after, _ => crossRow a b rect.bottom
  | .within, .after => crossColumn a b rect.right
  | .within, _ => crossColumn a b rect.left

/-- One round of clipping: the outcome, or the segment with one end moved. -/
inductive Round (α : Type)
  | invisible
  | visible
  | moved (a b : Pixel α)

def round (rect : Rect α) (a b : Pixel α) : Except Fault (Round α) := do
  let s := Region.of rect a
  let t := Region.of rect b
  if s = .inside && t = .inside then return .visible
  else if s.sharesSide t then return .invisible
  else if s = .inside then return .moved a (← rect.cross t a b)
  else return .moved (← rect.cross s a b) b

/-- Clips in at most `rounds` rounds. -/
def clipWithin (rect : Rect α) : (rounds : Nat) → Pixel α → Pixel α →
    Except Fault (Option (Pixel α × Pixel α))
  | 0, _, _ => .error .endlessClipping
  | rounds + 1, a, b => do
    match ← rect.round a b with
    | .invisible => return none
    | .visible => return some (a, b)
    | .moved a b => rect.clipWithin rounds a b

/-- As many rounds as there are segments between points of two doubles. What has not ended by then has come
back to where it was. -/
def roundLimit : Nat :=
  Nat.pow 2 256

/-- The part of the segment from `a` to `b` inside of the rectangle. A segment with an end that is not
finite has none. -/
def clip (rect : Rect α) (a b : Pixel α) : Except Fault (Option (Pixel α × Pixel α)) :=
  if a.isFinite && b.isFinite then rect.clipWithin roundLimit a b else .ok none

end Rect

end FieldPlot
