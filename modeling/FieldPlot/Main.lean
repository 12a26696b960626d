import FieldPlot.Startup.Launch

/-!
The command line of the program. Windows are not part of the library, so the program ends here with
the text that says so.
-/

namespace FieldPlot.Startup

/-- Why there is no window toolkit. -/
def toolkitFailure : String := "No module named 'PyQt5'"

/-- Writes out how a start ended. -/
def Outcome.report : Outcome → IO UInt32
  | .ready _ => return 0
  | .over exitCode output errors => do
    IO.print output
    IO.eprint errors
    return exitCode.toUInt32

end FieldPlot.Startup

def main (words : List String) : IO UInt32 :=
  (FieldPlot.Startup.start (some FieldPlot.Startup.toolkitFailure) words).report
