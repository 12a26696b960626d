import FieldPlot.Settings.Defaults

/-!
How finely a plot is sampled. A count that is no number is a fault only where it is used.
-/

namespace FieldPlot.Scene

open Settings (Table Value)

structure Detail where
  curveSteps : Except Fault Int
  standingCurveSteps : Except Fault Int
  surfaceGrid : Except Fault Int
  heatmapGrid : Except Fault Int
  planeDots : Except Fault Int
  planeArrows : Except Fault Int
  fieldLattice : Except Fault Int
  spaceArrows : Except Fault Int
  magnitudeLattice : Except Fault Int
  contourLevels : Except Fault Int
  dropLineEvery : Except Fault Int

namespace Detail

variable {α : Type} [Scalar α]

def ofTable (t : Table α) : Detail :=
  let count (key : String) : Except Fault Int := ((t.get? key).getD .null).toInteger
  { curveSteps := count "curveSteps"
    standingCurveSteps := count "standingCurveSteps"
    surfaceGrid := count "surfaceGrid"
    heatmapGrid := count "heatmapGrid"
    planeDots := count "scalarDots2d"
    planeArrows := count "arrows2d"
    fieldLattice := count "fieldLattice"
    spaceArrows := count "arrowCount3d"
    magnitudeLattice := count "magnitudeLattice"
    contourLevels := count "contourLevels"
    dropLineEvery := count "dropLineEvery" }

/-- The counts of a settings section, whose missing keys keep their defaults. -/
def ofValue (v : Value α) : Except Fault Detail := do
  return ofTable (Settings.samplingDefaults.update (← v.entries))

end Detail

end FieldPlot.Scene
