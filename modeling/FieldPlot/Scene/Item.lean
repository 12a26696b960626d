import FieldPlot.Geometry.Point

/-!
Display lists. An item is a shape with its stroke, the part it plays in the plot and its distance from
the eye; items are painted in list order.
-/

namespace FieldPlot.Scene

/-- The part an item plays in the plot. -/
inductive Role
  | subgrid | grid | axisGlow | axis | axisLabel | tick | label | boundary
  | surface | contour | dropline | shadow | curve | field | arrow | heatmap | colourBar
deriving DecidableEq, Repr

namespace Role

def name : Role → String
  | subgrid => "subgrid"
  | grid => "grid"
  | axisGlow => "axis-glow"
  | axis => "axis"
  | axisLabel => "axis-label"
  | tick => "tick"
  | label => "label"
  | boundary => "boundary"
  | surface => "surface"
  | contour => "contour"
  | dropline => "dropline"
  | shadow => "shadow"
  | curve => "curve"
  | field => "field"
  | arrow => "arrow"
  | heatmap => "heatmap"
  | colourBar => "colorbar"

/-- Whether items of the role belong to the frame of a plot in space and not to what is plotted. -/
def isDecoration : Role → Bool
  | subgrid | grid | axisGlow | axis | axisLabel | tick | label | boundary => true
  | _ => false

end Role

/-- How a line or a text is painted. -/
structure Stroke (α : Type) where
  colour : List Char
  opacity : α
  width : α
deriving Repr

/-- How an area is painted. -/
structure Fill (α : Type) where
  colour : List Char
  opacity : α
deriving Repr

/-- The point of a text that its position fixes. -/
inductive Anchor
  | topLeft | top | right | centre
deriving DecidableEq, Repr

def Anchor.name : Anchor → String
  | topLeft => "topleft"
  | top => "top"
  | right => "right"
  | centre => "center"

structure Font (α : Type) where
  size : α
  bold : Bool
  anchor : Anchor
deriving Repr

inductive Shape (α : Type)
  | line (a b : Pixel α)
  | polyline (points : List (Pixel α))
  | polygon (corners : List (Pixel α)) (fill : Fill α)
  | circle (centre : Pixel α) (radius : α) (fill : Fill α)
  | text (position : Pixel α) (content : List Char) (font : Font α)
  | colourBar (topLeft bottomRight : Pixel α) (gradient : List Char)
deriving Repr

namespace Shape

variable {α : Type}

def kind : Shape α → String
  | line .. => "line"
  | polyline .. => "polyline"
  | polygon .. => "polygon"
  | circle .. => "circle"
  | text .. => "text"
  | colourBar .. => "colorbar"

def points : Shape α → List (Pixel α)
  | line a b => [a, b]
  | polyline ps => ps
  | polygon ps _ => ps
  | circle p _ _ => [p]
  | text p _ _ => [p]
  | colourBar p q _ => [p, q]

/-- Whether the shape is made of segments alone. -/
def isLinear : Shape α → Bool
  | line .. | polyline .. => true
  | _ => false

end Shape

structure Item (α : Type) where
  shape : Shape α
  stroke : Stroke α
  role : Role
  depth : α
deriving Repr

end FieldPlot.Scene
