import FieldPlot.Startup.Options
import FieldPlot.Text.Blank

/-!
Starting the program: the text it ends with where the window toolkit cannot be loaded, and the choice
of what the view is painted with.
-/

namespace FieldPlot.Startup

/-- Whether `part` occurs in `s`. -/
def occursIn (part : List Char) : List Char → Bool
  | [] => part.isEmpty
  | c :: s => part.isPrefixOf (c :: s) || occursIn part s

/-- The parting text when the window toolkit fails to load for the reason given. -/
def failureText (details : String) : String :=
  let hint :=
    if occursIn "libGL.so.1".toList details.toList then
      ["Hint: the system library libGL.so.1 is missing. " ++
        "Install the Mesa/OpenGL packages for your platform."]
    else []
  "\n".intercalate
    (["Unable to start calcplot: importing PyQt5 failed.",
      "Check that PyQt5 is installed and that the required OpenGL libraries are available."] ++
      hint ++ ["Original error: " ++ details])

/-- Whether the view is painted with OpenGL. The choice of the caller counts before the one of the
environment; none means that the toolkit decides. -/
def usesOpenGL? (chosen environment : Option String) : Option Bool :=
  let name := match chosen with
    | some s => if s.isEmpty then environment else some s
    | none => environment
  let name := String.ofList ((Text.trim (name.getD "").toList).map Char.toLower)
  match Backend.ofName? name with
  | some .opengl => some true
  | some .raster => some false
  | _ => none

/-- How a start ends. -/
inductive Outcome
  | ready (options : Options)
  | over (exitCode : Nat) (output errors : String)
deriving DecidableEq, Repr

/-- The outcome of a start. The toolkit is loaded before the command line is looked at, so its
failure goes first. -/
def start (toolkitFailure : Option String) (words : List String) : Outcome :=
  match toolkitFailure with
  | some details => .over 1 "" (failureText details ++ "\n")
  | none =>
    match Options.ofWords (words.map String.toList) with
    | .ok options => .ready options
    | .error stop => .over stop.exitCode stop.output stop.errors

end FieldPlot.Startup
