import FieldPlot.Settings.Value

/-!
The settings a plot starts with, by section.
-/

namespace FieldPlot.Settings

section

variable {α : Type} [Scalar α]

def plotDefaults : Table α :=
  [("expression", .text "sin(x)*cos(y)"), ("dimension", .text "3d"), ("plotMode", .text "auto"),
    ("showContour", .bool false), ("showColorbar", .bool true)]

def spaceDefaults : Table α :=
  [("rotationX", .real 0.6), ("rotationZ", .real 0.8), ("rangeX", .real 5.0), ("rangeY", .real 5.0),
    ("rangeZ", .real 5.0), ("panX", .real 0.0), ("panY", .real 0.0), ("focalLength", .real 500.0),
    ("zoomAxis", .text "free"), ("minRange", .real 1.0), ("maxRange", .real 50.0),
    ("rotateSpeed", .real 0.01)]

def planeDefaults : Table α :=
  [("xMin", .real (-5.0)), ("xMax", .real 5.0), ("yMin", .real (-5.0)), ("yMax", .real 5.0),
    ("zoomAxis", .text "free"), ("axisZonePx", .real 60.0)]

def samplingDefaults : Table α :=
  [("curveSteps", .int 1000), ("standingCurveSteps", .int 300), ("surfaceGrid", .int 50),
    ("heatmapGrid", .int 40), ("scalarDots2d", .int 25), ("arrows2d", .int 20),
    ("fieldLattice", .int 12), ("arrowCount3d", .int 8), ("magnitudeLattice", .int 10),
    ("contourLevels", .int 10), ("autoZSamples", .int 6), ("dropLineEvery", .int 15)]

def fieldDefaults : Table α :=
  [("unitConvention", .text "ijk"), ("surfaceMode", .text "auto")]

def surfaceColours : String :=
  "#1E88E5@0,#00ACC1@0.25,#00897B@0.5,#43A047@0.75,#FDD835@1"

def jetColours : String :=
  "#000080@0,#0000FF@0.125,#00FFFF@0.375,#FFFF00@0.625,#FF0000@0.875,#800000@1"

def appearanceDefaults : Table α :=
  [("surfaceColors", .text surfaceColours), ("jetColors", .text jetColours),
    ("surfaceAlpha", .real 0.7), ("jetSurfaceAlpha", .real 0.85), ("heatmapAlpha", .real 0.6),
    ("background", .text "#101418"), ("grid", .text "#FFFFFF"), ("label", .text "#E0E0E0"),
    ("axisX", .text "#EF5350"), ("axisY", .text "#66BB6A"), ("axisZ", .text "#42A5F5"),
    ("curve", .text "#FFB300"), ("contour", .text "#FFFFFF")]

def systemDefaults : Table α :=
  [("transparent", .bool false), ("backend", .text "auto")]

/-- Every section of the settings. -/
def defaults : Table α :=
  [("plot", .table plotDefaults), ("view3d", .table spaceDefaults), ("view2d", .table planeDefaults),
    ("sampling", .table samplingDefaults), ("field", .table fieldDefaults),
    ("appearance", .table appearanceDefaults), ("system", .table systemDefaults)]

end

end FieldPlot.Settings
