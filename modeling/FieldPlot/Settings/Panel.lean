import FieldPlot.Request
import FieldPlot.View.ZoomAxis

/-!
The settings as a panel shows them: what it says of each, and the names that it offers for those that
are chosen from a list. A mode can be left to the plot, which is the automatic choice.
-/

namespace FieldPlot.Settings

open Vectors (Convention SurfaceMode)
open View (ZoomAxis)

/-- What is said of a setting, by its section and key. -/
def tooltips : List (String × String) :=
  [("plot.expression", "Scalar function of x, y, z or a vector field such as 'y*i - x*j'."),
    ("plot.dimension", "Draw a flat 2D plot or a rotatable 3D scene."),
    ("plot.plotMode", "Function draws curves, surfaces and arrows; field draws coloured samples. " ++
      "Auto picks field for expressions in z."),
    ("plot.showContour", "Overlay iso-lines of the plotted value."),
    ("plot.showColorbar", "Show the colour scale for heatmaps and vector fields."),
    ("view3d.rotationX", "Elevation of the camera in radians."),
    ("view3d.rotationZ", "Azimuth of the camera in radians."),
    ("view3d.rangeX", "Half-width of the visible x domain."),
    ("view3d.rangeY", "Half-width of the visible y domain."),
    ("view3d.rangeZ", "Half-height of the visible value range."),
    ("view3d.zoomAxis", "Restrict mouse-wheel zoom to a single axis."),
    ("view3d.focalLength", "Perspective strength: small values exaggerate depth."),
    ("view2d.zoomAxis", "Restrict mouse-wheel zoom to a single axis."),
    ("sampling.surfaceGrid", "Number of cells per side of the surface mesh."),
    ("sampling.curveSteps", "Number of samples along a 2D curve."),
    ("field.unitConvention",
      "Unit vector notation: 'ijk' for 3i+4j or yi-xj, 'e_xyz' for 3e_x+4e_y."),
    ("field.surfaceMode", "Value shown as a surface or heatmap for vector fields. " ++
      "Auto shows the magnitude of planar fields."),
    ("appearance.surfaceColors", "Colour stops of the surface gradient (#hex@position)."),
    ("system.transparent", "Draw the plot over a transparent background.")]

def dimensionChoices : List String :=
  ["2d", "3d"]

def plotModeChoices : List String :=
  "auto" :: [PlotMode.function, .field].map PlotMode.name

def zoomAxisChoices : List String :=
  ZoomAxis.all.map ZoomAxis.name

def surfaceModeChoices : List String :=
  "auto" :: SurfaceMode.all.map SurfaceMode.name

def conventionChoices : List String :=
  [Convention.ijk, .exyz].map Convention.name

/-- What a panel is built from, by name: the descriptions, the choices, or the section of the settings that a plot
starts with. -/
def forPanel {α : Type} [Scalar α] (name : String) : Value α :=
  if name = "tooltips" then .table (tooltips.map fun (place, text) => (place, .text text))
  else if name = "choices" then
    .list ([dimensionChoices, plotModeChoices, zoomAxisChoices, surfaceModeChoices, conventionChoices].map fun names =>
      .list (names.map .text))
  else (Table.get? defaults name).getD .null

end FieldPlot.Settings
