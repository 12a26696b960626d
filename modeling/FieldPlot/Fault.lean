/-!
Why an operation has no result. A fault names its cause; the texts that callers see are in `message`.
-/

namespace FieldPlot

/-- The closed lists of names that settings choose from. -/
inductive Choice
  | plotMode | surfaceMode | zoomAxis
deriving DecidableEq, Repr

def Choice.name : Choice → String
  | plotMode => "PlotMode"
  | surfaceMode => "SurfaceMode"
  | zoomAxis => "ZoomAxis"

inductive Fault
  /-- A quotient or remainder by zero. -/
  | divisionByZero
  /-- The integer part of an infinity. -/
  | infiniteInteger
  /-- The integer part of NaN. -/
  | undefinedInteger
  /-- An integer beyond the largest number. -/
  | integerTooLarge
  /-- An argument outside of a function's domain. -/
  | outsideDomain
  /-- A grid with a negative number of vertices. -/
  | negativeCount
  /-- A list of numbers that is too long for a machine. -/
  | listTooLong
  /-- A list of numbers that no memory holds. -/
  | outOfMemory
  /-- A text that is no number. -/
  | unreadableNumber
  /-- A setting that is no number at all. -/
  | notNumeric
  /-- A setting that is neither a table nor a list of entries. -/
  | notEntries
  /-- A list whose elements are not pairs. -/
  | malformedEntries
  /-- A setting that should be a table, or a text, of which something is asked that it lacks. -/
  | wrongShape
  /-- A clipping whose rounds repeat for ever. -/
  | endlessClipping
  /-- An element of an empty list. -/
  | emptyList
  /-- An expression nested beyond the bound. -/
  | nestedTooDeep
  /-- A value that is no member of a closed list; the text is its quoted form. -/
  | unknownChoice (choice : Choice) (shown : String)
  /-- A notation of unit vectors that does not exist; the text is its quoted form. -/
  | unknownConvention (shown : String)
  /-- An expression that is refused, with what is wrong with it. -/
  | rejected (reason : String) (issues : List String)
deriving DecidableEq, Repr

/-- The text of a fault that callers see; most faults are told apart by their kind alone. -/
def Fault.message : Fault → String
  | unknownChoice choice shown => shown ++ " is not a valid " ++ choice.name
  | unknownConvention shown =>
    "unknown unit convention " ++ shown ++ ", expected one of ['e_xyz', 'ijk']"
  | rejected reason _ => reason
  | _ => ""

end FieldPlot
