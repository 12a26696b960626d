/-!
Points of model space, where `x` and `y` span the floor and `z` is the plotted value, and of the
canvas, where `y` grows downwards.
-/

namespace FieldPlot

structure Point (α : Type) where
  x : α
  y : α
  z : α
deriving DecidableEq, Repr

/-- A position on the canvas. -/
structure Pixel (α : Type) where
  x : α
  y : α
deriving DecidableEq, Repr

end FieldPlot
