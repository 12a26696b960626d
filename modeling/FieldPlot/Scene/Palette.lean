import FieldPlot.Colour.Gradient
import FieldPlot.Settings.Defaults

/-!
The appearance of a plot. Colours are taken as they are written; an opacity that is no number and a
gradient without stops are faults only where they are used.
-/

namespace FieldPlot.Scene

open Colour (Stop)
open Settings (Table Value)

structure Palette (α : Type) where
  grid : List Char
  label : List Char
  axisX : List Char
  axisY : List Char
  axisZ : List Char
  curve : List Char
  jetText : List Char
  jetStops : Except Fault (List (Stop α))
  surfaceStops : Except Fault (List (Stop α))
  surfaceOpacity : Except Fault α
  jetSurfaceOpacity : Except Fault α
  heatmapOpacity : Except Fault α

namespace Palette

variable {α : Type} [Scalar α]

/-- The stops of a gradient text, or of `default` if the text is empty. -/
def stops (s : List Char) (default : String) : Except Fault (List (Stop α)) :=
  Colour.readStops (if s.isEmpty then default.toList else s)

def ofTable (t : Table α) : Palette α :=
  let setting (key : String) : Value α := (t.get? key).getD .null
  let colour (key : String) : List Char := (setting key).asText.toList
  { grid := colour "grid"
    label := colour "label"
    axisX := colour "axisX"
    axisY := colour "axisY"
    axisZ := colour "axisZ"
    curve := colour "curve"
    jetText := colour "jetColors"
    jetStops := stops (colour "jetColors") Settings.jetColours
    surfaceStops := stops (colour "surfaceColors") Settings.surfaceColours
    surfaceOpacity := (setting "surfaceAlpha").toReal
    jetSurfaceOpacity := (setting "jetSurfaceAlpha").toReal
    heatmapOpacity := (setting "heatmapAlpha").toReal }

/-- The palette of a settings section, whose missing keys keep their defaults. -/
def ofValue (v : Value α) : Except Fault (Palette α) := do
  return ofTable (Settings.appearanceDefaults.update (← v.entries))

/-- The colour of the jet gradient at `t`. -/
def jet (p : Palette α) (t : α) : Except Fault (List Char) := do
  Colour.colourAt (← p.jetStops) t

/-- The colour of the surface gradient at `t`. -/
def surface (p : Palette α) (t : α) : Except Fault (List Char) := do
  Colour.colourAt (← p.surfaceStops) t

end Palette

/-- Where a value lies between `lo` and `hi`, in the unit interval. -/
def normalise {α : Type} [Scalar α] (value lo hi : α) : Except Fault α :=
  if hi == lo then .ok 0.0
  else do return Scalar.clampUnit (← Scalar.divide (value - lo) (hi - lo))

end FieldPlot.Scene
