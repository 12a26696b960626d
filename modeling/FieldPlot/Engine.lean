import FieldPlot.Scene.Build
import FieldPlot.Settings.Merge
import FieldPlot.Step

/-!
The state behind a plot window: the merged settings, the request that follows from them and both
views. Updates and gestures are steps from one state to the next, a frame is the display list of the
current one.
-/

namespace FieldPlot

open Expression (Arithmetic)
open Scene (Item)
open Settings (Table Value)
open View (PlaneView SpaceView ZoomAxis)

structure Engine (α : Type) where
  settings : Table α
  space : SpaceView α
  plane : PlaneView α
  request : Option Request
  error : Option String
  /-- The number of items of the last frame; none before the first one. -/
  lastCount : Option Nat
  /-- What the last frame showed. -/
  lastNote : String

namespace Engine

variable {α : Type} [Scalar α]

def source : String := "calcplot.engine"

/-- A section of the settings; a missing one has no keys at all. -/
def part (e : Engine α) (key : String) : Value α :=
  (Table.get? e.settings key).getD .null

/-! ### The request -/

/-- A mode as it is handed to a request, where the automatic one is not set. -/
def chosenMode (v : Value α) : Value α :=
  match v with
  | .text "auto" => .null
  | v => v

/-- The submission that the settings describe. -/
def submission (e : Engine α) : Except Fault (Request.Options α × List Char) := do
  let plot := e.part "plot"
  let field := e.part "field"
  let plotMode ← plot.lookup "plotMode" (.text "auto")
  let surfaceMode ← field.lookup "surfaceMode" (.text "auto")
  let expression ← plot.lookup "expression" (.text "")
  let showContour ← plot.lookup "showContour" (.bool false)
  let showColorbar ← plot.lookup "showColorbar" (.bool true)
  let convention ← field.lookup "unitConvention" .null
  return ({ plotMode := chosenMode plotMode, surfaceMode := chosenMode surfaceMode,
            showContour := showContour.isTruthy, showColorbar := showColorbar.isTruthy,
            convention, strict := true },
    expression.asText.toList)

def plottingEntry (r : Request) : Entry :=
  .info source ("Plotting " ++ Text.quoted (String.ofList r.expression) ++ " as " ++ r.kind ++ " (" ++
    r.plotMode.name ++ ", surface=" ++ r.surfaceMode.name ++ ")")

/-- Submits the expression of the settings. A refusal leaves no request but its reason; any other
fault leaves everything as it was. -/
def submit (e : Engine α) : Step (Engine α) :=
  match e.submission with
  | .error f => .failed e f
  | .ok (options, text) =>
    match Request.ofExpression options text with
    | (.ok r, entries) =>
      { state := { e with request := some r, error := none }, entries := entries ++ [plottingEntry r] }
    | (.error (.rejected reason _), entries) =>
      { state := { e with request := none, error := some reason }, entries }
    | (.error f, entries) => { state := e, entries, fault := some f }

/-- The state a window opens with, and what there is to report of it. -/
def initial : Step (Engine α) :=
  submit {
    settings := Settings.defaults
    space := SpaceView.initial
    plane := PlaneView.initial
    request := none
    error := none
    lastCount := none
    lastNote := "" }

/-! ### Updates -/

/-- Assigns entries of a section, which has to be a table. -/
def updatePart (key : String) (entries : Table α) (e : Engine α) : Step (Engine α) :=
  match e.part key with
  | .table t => .done { e with settings := e.settings.set key (.table (Table.update t entries)) }
  | _ => .failed e .wrongShape

/-- Writes the views back into the settings, so that a partial update does not rewind them. -/
def foldViews (e : Engine α) : Step (Engine α) :=
  (updatePart "view3d" e.space.toTable e).andThen fun e =>
    updatePart "view2d" (PlaneView.toTable e.plane) e

def mergePayload (payload : Table α) (e : Engine α) : Step (Engine α) :=
  .done { e with settings := Settings.merge e.settings payload }

def reloadSpace (e : Engine α) : Step (Engine α) :=
  .atomic e do return { e with space := ← SpaceView.ofValue (e.part "view3d") }

def reloadPlane (e : Engine α) : Step (Engine α) :=
  .atomic e do return { e with plane := ← PlaneView.ofValue (e.part "view2d") }

/-- Goes on with `next` if the payload names one of the sections. -/
def whenNamed (payload : Table α) (keys : List String) (next : Engine α → Step (Engine α))
    (e : Engine α) : Step (Engine α) :=
  if keys.any fun key => (payload.get? key).isSome then next e else .done e

/-- Merges a payload of sections into the settings and brings views and request up to date. What is no
mapping is passed over. -/
def setParams (payload : Value α) (e : Engine α) : Step (Engine α) :=
  match payload.mapped? with
  | some payload =>
    e.foldViews.andThen fun e => (mergePayload payload e).andThen fun e =>
      (whenNamed payload ["view3d"] reloadSpace e).andThen fun e =>
        (whenNamed payload ["view2d"] reloadPlane e).andThen fun e =>
          whenNamed payload ["plot", "field"] submit e
  | none => .done e

/-! ### Gestures -/

/-- Whether the plot is shown in space. -/
def isSpace (e : Engine α) : Except Fault Bool := do
  let dimension ← (e.part "plot").lookup "dimension" (.text "3d")
  return dimension.asText.toList.map Char.toLower = ['3', 'd']

/-- A gesture that means one thing in space and another in the plane. -/
def gesture (e : Engine α) (inSpace inPlane : Step (Engine α)) : Step (Engine α) :=
  match e.isSpace with
  | .ok true => inSpace
  | .ok false => inPlane
  | .error f => .failed e f

def rotate (dx dy : α) (e : Engine α) : Step (Engine α) :=
  e.gesture (.done { e with space := e.space.rotate dx dy }) (.done e)

def pan (dx dy width height : α) (e : Engine α) : Step (Engine α) :=
  e.gesture (.done { e with space := e.space.panBy dx dy })
    (.atomic e do
      let width := Scalar.larger 1.0 width
      let height := Scalar.larger 1.0 height
      return { e with plane := ← PlaneView.panBy dx dy width height e.plane })

/-- The value range that fits the request, if it has one. -/
def autoZ [Arithmetic α] (e : Engine α) (rangeX rangeY : α) : Except Fault (Option α) :=
  match e.request with
  | some r => r.autoZ r.samples rangeX rangeY
  | none => .ok none

def zoomSpace [Arithmetic α] (factor : α) (e : Engine α) : Step (Engine α) :=
  match (e.part "view3d").lookup "zoomAxis" (.text "free") with
  | .error f => .failed e f
  | .ok axis =>
    (e.space.zoom factor (ZoomAxis.ofValue axis) e.autoZ).map fun space => { e with space }

/-- A zoom in the plane keeps the model point under the cursor where it is. -/
def zoomPlane (factor : α) (cursor : Pixel α) (width height : α) (e : Engine α) :
    Except Fault (Engine α) := do
  let part := e.part "view2d"
  let axis ← part.lookup "zoomAxis" (.text "free")
  let zone ← (← part.lookup "axisZonePx" (.real 60.0)).toReal
  let axis := ZoomAxis.detect cursor height zone (← ZoomAxis.ofValue axis)
  let focus ← PlaneView.toModel e.plane (Scalar.larger 1.0 width) (Scalar.larger 1.0 height) cursor
  return { e with plane := ← PlaneView.zoom factor (.ok axis) (some focus) e.plane }

def zoom [Arithmetic α] (factor : α) (cursor : Pixel α) (width height : α) (e : Engine α) :
    Step (Engine α) :=
  e.gesture (e.zoomSpace factor) (.atomic e (e.zoomPlane factor cursor width height))

def resetView (e : Engine α) : Step (Engine α) :=
  e.gesture (.done { e with space := SpaceView.initial }) (.done { e with plane := PlaneView.initial })

/-! ### Frames -/

def view (e : Engine α) : Except Fault (Scene.AnyView α) := do
  return if ← e.isSpace then .space e.space else .plane e.plane

/-- The display list of the current state; empty without a request. -/
def items [Arithmetic α] (width height : α) (e : Engine α) : Except Fault (List (Item α)) :=
  match e.request with
  | none => .ok []
  | some r => do
    Scene.build r r.samples (← e.view) width height (e.part "appearance") (e.part "sampling")

/-- What a frame shows, in short. -/
def note (e : Engine α) : Except Fault String := do
  let dimension := if ← e.isSpace then "3d" else "2d"
  return match e.request with
    | none => dimension
    | some r => dimension ++ ":" ++ r.kind ++ ":" ++ r.plotMode.name

def countEntry (count : Nat) (width height : α) : Entry :=
  .debug source ("items=" ++ toString count ++ " size=" ++ toString (Scalar.truncate width) ++ "x" ++
    toString (Scalar.truncate height))

def noteEntry (note : String) : Entry :=
  .debug source ("scene=" ++ note)

/-- Reports the number of items where it changes. -/
def reportCount (count : Nat) (width height : α) (e : Engine α) : Step (Engine α) :=
  if e.lastCount = some count then .done e
  else { state := { e with lastCount := some count }, entries := [countEntry count width height] }

/-- Reports what is shown where it changes. -/
def reportNote (e : Engine α) : Step (Engine α) :=
  match e.note with
  | .error f => .failed e f
  | .ok note =>
    if e.lastNote = note then .done e
    else { state := { e with lastNote := note }, entries := [noteEntry note] }

/-- Builds a frame and reports what is new about it. -/
def frame [Arithmetic α] (width height : α) (e : Engine α) : List (Item α) × Step (Engine α) :=
  match e.items width height with
  | .error f => ([], .failed e f)
  | .ok items => (items, (reportCount items.length width height e).andThen reportNote)

end Engine

end FieldPlot
