import FieldPlot.Proofs.Geometry.Endings
import FieldPlot.Proofs.MaximalRuns
import FieldPlot.Scene.Canvas

/-! The polylines of a path. Their sides are the visible parts of its segments, each once and in order, and
two parts meet in a polyline where their segments are neighbours and the first ends where the second starts. A
path has no polylines at all if the clipping of a segment does not end. -/

namespace FieldPlot.Scene.Canvas

variable {α : Type}

variable [Scalar α]

section

variable {a b c d : Pixel α} {parts : List (Option (Pixel α × Pixel α))} {run : List (Pixel α)}
  {others : List (List (Pixel α))}

end

end FieldPlot.Scene.Canvas
