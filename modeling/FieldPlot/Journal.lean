/-!
What an operation has to report beside its result: entries with a level, the part of the library
that speaks, and a text. Operations return their entries in order; who listens decides what to show.
-/

namespace FieldPlot

structure Entry where
  level : Int
  source : String
  message : String
deriving DecidableEq, Repr

namespace Entry

def debugLevel : Int := 10

def infoLevel : Int := 20

def warningLevel : Int := 30

def debug (source message : String) : Entry :=
  ⟨debugLevel, source, message⟩

def info (source message : String) : Entry :=
  ⟨infoLevel, source, message⟩

def warning (source message : String) : Entry :=
  ⟨warningLevel, source, message⟩

end Entry

/-- The name of a level; levels between the named ones show their number. -/
def levelName (level : Int) : String :=
  if level = 0 then "NOTSET"
  else if level = 10 then "DEBUG"
  else if level = 20 then "INFO"
  else if level = 30 then "WARNING"
  else if level = 40 then "ERROR"
  else if level = 50 then "CRITICAL"
  else "Level " ++ toString level

/-- The line of an entry without its time. -/
def Entry.line (e : Entry) : String :=
  e.source ++ " - " ++ levelName e.level ++ " - " ++ e.message

end FieldPlot
