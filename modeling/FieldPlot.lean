import FieldPlot.Engine
import FieldPlot.Expression.Double
import FieldPlot.Listener
import FieldPlot.Main
import FieldPlot.Scalar.Double
import FieldPlot.Proofs.Expression.Grammar
import FieldPlot.Proofs.Expression.Literal
import FieldPlot.Proofs.Expression.Soundness
import FieldPlot.Proofs.Expression.Completeness
import FieldPlot.Proofs.Expression.Lexemes
import FieldPlot.Proofs.Expression.Progress
import FieldPlot.Proofs.Expression.WellFormed
import FieldPlot.Proofs.Scalar.Exact
import FieldPlot.Proofs.Geometry.Clipping
import FieldPlot.Proofs.Sampling.Edges
import FieldPlot.Proofs.Sampling.IsoLines
import FieldPlot.Proofs.Expression.Leading
import FieldPlot.Proofs.Vectors.SignedSum
import FieldPlot.Proofs.Engine.PartialUpdates
import FieldPlot.Proofs.Request.Dimension
import FieldPlot.Proofs.Scene.Faultless
import FieldPlot.Proofs.Scene.WithinCanvas
import FieldPlot.Proofs.Scene.PaintersOrder
import FieldPlot.Proofs.Vectors.Bracketed
import FieldPlot.Proofs.Request.Acceptance
import FieldPlot.Proofs.Engine.CurrentRequest
import FieldPlot.Proofs.Sampling.Stretches
import FieldPlot.Proofs.Scene.Stitching
import FieldPlot.Proofs.Expression.Enclosed
import FieldPlot.Proofs.Engine.RefusedUpdates
import FieldPlot.Proofs.Expression.UnreadTail
import FieldPlot.Proofs.Expression.OnePass
import FieldPlot.Proofs.Expression.MissingOperand
import FieldPlot.Proofs.Expression.StackBound
import FieldPlot.Proofs.Expression.StrayClosing
import FieldPlot.Proofs.Request.Diagnostics
import FieldPlot.Proofs.Vectors.MarkerSearch
import FieldPlot.Proofs.Engine.PlaneGestures
import FieldPlot.Proofs.Scalar.Real
import FieldPlot.Proofs.View.Limits
import FieldPlot.Proofs.Engine.AtomicGestures
import FieldPlot.Proofs.Sampling.Positions
import FieldPlot.Proofs.Sampling.Surfaces
import FieldPlot.Proofs.Geometry.Rotation
import FieldPlot.Proofs.Scene.SurfaceCells
import FieldPlot.Proofs.Sampling.MeshEdges
import FieldPlot.Proofs.Scene.ContourHeights
import FieldPlot.Proofs.Scalar.Quotient
import FieldPlot.Proofs.Scene.ArrowHeights
import FieldPlot.Proofs.View.Zooming
import FieldPlot.Proofs.Sampling.Levels
import FieldPlot.Proofs.Colour.Hexadecimal
import FieldPlot.Proofs.Colour.Interpolation
import FieldPlot.Proofs.Scene.HeatmapTiles
import FieldPlot.Proofs.Scene.AxisMarks
import FieldPlot.Proofs.Sampling.LatticeArrows
import FieldPlot.Proofs.Sampling.NiceSpacing
import FieldPlot.Proofs.Scene.Dots
import FieldPlot.Proofs.Scalar.Decoded
import FieldPlot.Proofs.Scalar.Valued
import FieldPlot.Proofs.Scalar.DecimalText
import FieldPlot.Proofs.Scene.Labels
import FieldPlot.Proofs.Settings.MergeLaws
import FieldPlot.Proofs.Settings.Panel
import FieldPlot.Proofs.Request.LetterCase
import FieldPlot.Proofs.Expression.MaximalMunch
