import FieldPlot.Journal
import FieldPlot.Text.Lines
import FieldPlot.Text.Numeral

/-!
Who listens to the entries of the library: the console, and a file if one was asked for. Both show the
lines of entries from a level on, and a new file starts empty. The time of day is left out of them.
-/

namespace FieldPlot

structure Listener where
  /-- The lowest level that is shown; 0 leaves the choice to the system. -/
  level : Int := 0
  console : Bool := false
  file : Bool := false
  /-- The lines in the file, also after listening to it has ended. -/
  fileLines : List String := []
deriving DecidableEq, Repr

namespace Listener

/-- The part of the library that speaks for the whole. -/
def root : String := "calcplot"

/-- Whether the library itself is the source of an entry. -/
def isOwn (source : String) : Bool :=
  source = root || (root ++ ".").toList.isPrefixOf source.toList

/-- The level from which on entries are shown. -/
def threshold (l : Listener) : Int :=
  if l.level = 0 then Entry.warningLevel else l.level

def accepts (l : Listener) (e : Entry) : Bool :=
  isOwn e.source && 0 < e.level && l.threshold ≤ e.level && l.level ≤ e.level

/-- A line without the time of day at its head. -/
def dropClock (line : List Char) : List Char :=
  let shape (c : Char) : Char := if (Text.decimalValue? c).isSome then '0' else c
  if (line.take 11).map shape = "00:00:00 - ".toList then line.drop 11 else line

/-- The lines of an entry; its message may have several, and one of them may start like a line of its
own. -/
def lines (e : Entry) : List String :=
  (Text.lines (e.line.toList ++ ['\n'])).map fun line => String.ofList (dropClock line)

/-- The listener after an entry, and the lines that the console shows of it. -/
def hear (e : Entry) (l : Listener) : Listener × List String :=
  if l.accepts e then
    ({ l with fileLines := if l.file then l.fileLines ++ lines e else l.fileLines },
      if l.console then lines e else [])
  else (l, [])

/-- Listens from now on at the given level, also into a new file if `file` is set. -/
def start (level : Int) (file : Bool) (l : Listener) : Listener × List String :=
  hear (.debug root "Logging initialized.")
    ⟨level, true, file, if file then [] else l.fileLines⟩

/-- The levels of the console and of the file, as far as they are listened to. -/
def levels (l : Listener) : List Int :=
  (if l.console then [l.level] else []) ++ (if l.file then [l.level] else [])

end Listener

end FieldPlot
