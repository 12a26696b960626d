import FieldPlot.Journal
import FieldPlot.Sampling.Lattice
import FieldPlot.Settings.Defaults
import FieldPlot.Vectors.Formula

/-!
What to plot, decided once when an expression is submitted: a scalar function or a vector field, and
how either is shown. A strict submission refuses an empty text and one that cannot be evaluated;
everything else is plotted as it is read, and what had to be skipped is kept as issues.
-/

namespace FieldPlot

open Expression (Arithmetic Formula Issue)
open Vectors (Components Convention FieldFormula SurfaceMode Vec)
open Settings (Value)

inductive PlotMode
  | function | field
deriving DecidableEq, Repr

namespace PlotMode

def name : PlotMode → String
  | function => "function"
  | field => "field"

def ofName? (s : String) : Option PlotMode :=
  [function, field].find? (·.name = s)

/-- The mode that a setting names. -/
def ofValue {α : Type} [Scalar α] (v : Value α) : Except Fault PlotMode :=
  let found := match v with
    | .text s => ofName? s
    | _ => none
  match found with
  | some mode => .ok mode
  | none => .error (.unknownChoice .plotMode v.shown)

end PlotMode

namespace Vectors

variable {α : Type} [Scalar α]

/-- The surface mode that a setting names. -/
def SurfaceMode.ofValue (v : Value α) : Except Fault SurfaceMode :=
  let found := match v with
    | .text s => ofName? s
    | _ => Option.none
  match found with
  | some mode => .ok mode
  | Option.none => .error (.unknownChoice .surfaceMode v.shown)

/-- The notation that a setting names. -/
def Convention.named (v : Value α) : Except Fault Convention :=
  match v with
  | .text s =>
    match ofName? s with
    | some c => .ok c
    | none => .error (.unknownConvention v.shown)
  | _ => .error .wrongShape

/-- The notation that a setting names; where it is not set, the usual one. -/
def Convention.ofValue (v : Value α) : Except Fault Convention :=
  if v.isTruthy then named v else .ok .ijk

/-- The entries for components that a text sets twice. -/
def Repetition.entry (s : List Char) (r : Repetition) : Entry :=
  .warning "calcplot.vector_field" ("Vector field " ++ Text.quoted (String.ofList s) ++ " sets the " ++
    r.axis.name ++ " component twice; keeping " ++ Text.quoted (String.ofList r.kept))

/-- The components of a text in one notation, if it is a vector field, and what there is to report. -/
def parse (convention : Convention) (s : List Char) : Option Components × List Entry :=
  let (field, repetitions) := decompose convention s
  (field, repetitions.map (Repetition.entry s))

end Vectors

structure Request where
  expression : List Char
  /-- The components of a vector field; absent for a scalar function. -/
  field : Option Components
  /-- Whether the plot needs the third dimension: a field with a z component, or a function of more
  than x. -/
  spatial : Bool
  plotMode : PlotMode
  surfaceMode : SurfaceMode
  showContour : Bool
  showColorbar : Bool
  issues : List Issue
deriving DecidableEq

namespace Request

/-- How an expression is submitted. A mode that is not set follows from the expression. -/
structure Options (α : Type) where
  plotMode : Value α := .null
  surfaceMode : Value α := .null
  showContour : Bool := false
  showColorbar : Bool := true
  convention : Value α := .null
  strict : Bool := false

/-- The kind of the plotted thing. -/
def kind (r : Request) : String :=
  if r.field.isSome then "vector" else "scalar"

variable {α : Type} [Scalar α]

/-- A value, or `default` if it does not count as set. -/
def orElse (v default : Value α) : Value α :=
  if v.isTruthy then v else default

def ofField (o : Options α) (s : List Char) (field : Components) : Except Fault Request := do
  let plotMode ← PlotMode.ofValue (orElse o.plotMode (.text PlotMode.function.name))
  let surfaceMode ← match o.surfaceMode with
    | .null => pure (if field.isSpatial then SurfaceMode.none else .magnitude)
    | v => SurfaceMode.ofValue v
  return ⟨s, some field, field.isSpatial, plotMode, surfaceMode, o.showContour, o.showColorbar, []⟩

def ofFunction (o : Options α) (s : List Char) (issues : List Issue) : Except Fault Request := do
  let spatial := Expression.usesZ s
  let plotMode ← match o.plotMode with
    | .null => pure (if spatial then PlotMode.field else .function)
    | v => PlotMode.ofValue v
  let surfaceMode ← SurfaceMode.ofValue (orElse o.surfaceMode (.text SurfaceMode.none.name))
  return ⟨s, none, Expression.usesY s || spatial, plotMode, surfaceMode, o.showContour,
    o.showColorbar, issues⟩

def source : String := "calcplot.scene"

/-- The refusal of a text that is nested too deeply. -/
def tooDeep : String := "maximum recursion depth exceeded"

def leniencyEntry (s : List Char) (issues : List Issue) : Entry :=
  .warning source ("Plotting " ++ Text.quoted (String.ofList s) ++ " leniently: " ++
    "; ".intercalate (issues.map Issue.message))

def refusalEntry (s : List Char) : Entry :=
  .warning source ("Rejected expression " ++ Text.quoted (String.ofList s) ++ ": " ++ tooDeep)

/-- A trial of a scalar function: its issues, or the refusal. -/
def trial (s : List Char) : Except Fault (List Issue) × List Entry :=
  match Expression.check s with
  | .ok [] => (.ok [], [])
  | .ok issues => (.ok issues, [leniencyEntry s issues])
  | .error _ => (.error (.rejected "Invalid function syntax" [tooDeep]), [refusalEntry s])

/-- The request for a submitted text, and what there is to report of it. -/
def ofExpression (o : Options α) (text : List Char) : Except Fault Request × List Entry :=
  let s := Text.trim text
  if o.strict && s.isEmpty then
    (.error (.rejected "Please enter a function" [Issue.empty.message]), [])
  else
    match Convention.ofValue o.convention with
    | .error f => (.error f, [])
    | .ok convention =>
      match Vectors.parse convention s with
      | (some field, entries) => (ofField o s field, entries)
      | (none, entries) =>
        if o.strict then
          match trial s with
          | (.ok issues, more) => (ofFunction o s issues, entries ++ more)
          | (.error f, more) => (.error f, entries ++ more)
        else (ofFunction o s [], entries)

/-- The plotted thing as functions that are sampled. A request is drawn through these alone, so a scene
can be built of any functions. -/
structure Samples (α : Type) where
  scalar : Point α → Except Fault (Option α)
  vector : Point α → Except Fault (Vec (Option α))

def samples [Arithmetic α] (r : Request) : Samples α :=
  let scalar : Formula α := Formula.ofChars r.expression
  let vector : FieldFormula α := FieldFormula.ofComponents (r.field.getD .none)
  ⟨scalar.sample, vector.sample⟩

/-- The value range that fits a scalar function of more than x; none for anything else. -/
def autoZ (r : Request) (samples : Samples α) (rangeX rangeY : α) : Except Fault (Option α) :=
  if r.field.isNone && r.spatial then Sampling.autoRange samples.scalar rangeX rangeY 6
  else .ok none

end Request

end FieldPlot
