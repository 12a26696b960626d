/-!
Notations of unit vectors. Each writes the three axes with markers of its own, and a text is read in
one notation only.
-/

namespace FieldPlot.Vectors

inductive Axis
  | x | y | z
deriving DecidableEq, Repr

def Axis.name : Axis → String
  | x => "x"
  | y => "y"
  | z => "z"

def Axis.all : List Axis :=
  [.x, .y, .z]

inductive Convention
  | ijk | exyz
deriving DecidableEq, Repr

namespace Convention

def name : Convention → String
  | ijk => "ijk"
  | exyz => "e_xyz"

def ofName? (s : String) : Option Convention :=
  if s = ijk.name then some ijk else if s = exyz.name then some exyz else none

/-- The marker of an axis, in lower case. -/
def marker : Convention → Axis → List Char
  | ijk, .x => ['i']
  | ijk, .y => ['j']
  | ijk, .z => ['k']
  | exyz, .x => ['e', '_', 'x']
  | exyz, .y => ['e', '_', 'y']
  | exyz, .z => ['e', '_', 'z']

theorem ofName?_name (c : Convention) : ofName? c.name = some c := by
  cases c <;> rfl

end Convention

/-- A character in lower case, as far as a marker can tell. The Kelvin sign is the one character
beyond ASCII with a lower case in ASCII. -/
def lowerChar (c : Char) : Char :=
  if c = '\u212A' then 'k' else c.toLower

end FieldPlot.Vectors
