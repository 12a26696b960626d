import FieldPlot.Expression.Token
import FieldPlot.Text.Blank
import FieldPlot.Text.Numeral
import FieldPlot.Vectors.Convention

/-!
Decomposing a sum of unit vector terms into one expression for each axis. The text is cut into terms
at the signs outside of brackets, a term that ends in a marker gives its axis the text before it, and
the last term of an axis wins. A text without any such term is no field.
-/

namespace FieldPlot.Vectors

open Expression (tokens)
open Text (isLetter isAlphanumeric isDigitSign)

/-- The component expressions of a vector field; an absent component is zero everywhere. -/
structure Components where
  x : Option (List Char)
  y : Option (List Char)
  z : Option (List Char)
deriving DecidableEq, Repr

namespace Components

def none : Components :=
  ⟨.none, .none, .none⟩

def get (f : Components) : Axis → Option (List Char)
  | .x => f.x
  | .y => f.y
  | .z => f.z

def set (f : Components) (axis : Axis) (s : List Char) : Components :=
  match axis with
  | .x => { f with x := some s }
  | .y => { f with y := some s }
  | .z => { f with z := some s }

theorem get_set (f : Components) (a b : Axis) (s : List Char) :
    (f.set a s).get b = if b = a then some s else f.get b := by
  cases a <;> cases b <;> rfl

def isSpatial (f : Components) : Bool :=
  f.z.isSome

def shown (c : Option (List Char)) : String :=
  match c with
  | some s => String.ofList s
  | .none => "None"

def text (f : Components) : String :=
  "Vector(x: " ++ shown f.x ++ ", y: " ++ shown f.y ++ ", z: " ++ shown f.z ++ ")"

end Components

/-- Behind these a sign belongs to the coefficient. -/
def keepsSign (c : Char) : Bool :=
  ['*', '/', '^', '(', ','].contains c

/-- The depth of brackets behind `c`. -/
def depthAfter (depth : Int) (c : Char) : Int :=
  if c = '(' then depth + 1 else if c = ')' then depth - 1 else depth

/-- The rest of the current term and the terms behind it, for a text at bracket depth `depth` behind
the character `previous`. A minus stays at the head of its term, a plus is dropped. -/
def splitFrom (depth : Int) (previous : Option Char) : List Char → List Char × List (List Char)
  | [] => ([], [])
  | c :: s =>
    let (term, terms) := splitFrom (depthAfter depth c) (some c) s
    if (c = '+' || c = '-') && depth = 0 && previous.any (!keepsSign ·) then
      ([], (if c = '-' then c :: term else term) :: terms)
    else (c :: term, terms)

/-- The nonempty terms of a text without spaces. -/
def splitTerms (s : List Char) : List (List Char) :=
  let (term, terms) := splitFrom 0 none s
  (term :: terms).filter (!·.isEmpty)

/-- Whether a marker behind `before` starts a token of its own. It may follow a number and a lone
variable, but no other name. -/
def startsToken (before : List Char) : Bool :=
  match before.reverse with
  | [] => true
  | last :: earlier =>
    if isLetter last || last = '_' then
      ['x', 'y', 'z'].contains last.toLower &&
        !earlier.head?.any fun c => isAlphanumeric c || ['_', '.', ')'].contains c
    else if isDigitSign last || last = '.' then
      match (tokens before).getLast? with
      | some ⟨.number _, _⟩ => true
      | _ => false
    else true

/-- The coefficient and axis of a term that ends in a marker. -/
def splitTerm? (convention : Convention) (term : List Char) : Option (List Char × Axis) :=
  Axis.all.findSome? fun axis =>
    let marker := convention.marker axis
    let before := term.take (term.length - marker.length)
    if marker.isSuffixOf (term.map lowerChar) && startsToken before then some (before, axis)
    else .none

/-- The coefficient as an expression: nothing counts as 1, and a product sign at the end goes. -/
def coefficient (s : List Char) : List Char :=
  let s := Text.trim s
  if s = [] || s = ['+'] then ['1']
  else if s = ['-'] then ['-', '1']
  else if s.getLast? = some '*' || s.getLast? = some '·' then s.dropLast
  else s

/-- Whether a marker stands at the head of `s` and ends a term there. -/
def markerEnds (convention : Convention) (s : List Char) : Bool :=
  Axis.all.any fun axis =>
    let marker := convention.marker axis
    marker.isPrefixOf s &&
      match s.drop marker.length with
      | [] => true
      | ['\n'] => true
      | c :: _ => c = '+' || c = '-'

/-- Whether a marker, possibly behind a variable, ends a term somewhere in the lowered text `s`;
`afterName` tells whether a letter or an underscore precedes `s`. -/
def mentionsMarker (convention : Convention) (afterName : Bool) : List Char → Bool
  | [] => false
  | c :: s =>
    (!afterName && (markerEnds convention (c :: s) ||
      (['x', 'y', 'z'].contains c && markerEnds convention s))) ||
    mentionsMarker convention (('a' ≤ c && c ≤ 'z') || c = '_') s

/-- A component that was set again, and what it is set to now. -/
structure Repetition where
  axis : Axis
  kept : List Char
deriving DecidableEq, Repr

/-- The components so far and the repetitions among them. -/
structure Gathered where
  components : Components
  repetitions : List Repetition

def Gathered.add (convention : Convention) (g : Gathered) (term : List Char) : Gathered :=
  match splitTerm? convention term with
  | .none => g
  | some (before, axis) =>
    let c := coefficient before
    { components := g.components.set axis c
      repetitions :=
        if (g.components.get axis).isSome then g.repetitions ++ [⟨axis, c⟩] else g.repetitions }

/-- The terms of a text gathered by axis. -/
def gather (convention : Convention) (s : List Char) : Gathered :=
  (splitTerms s).foldl (Gathered.add convention) ⟨.none, []⟩

/-- The components of a text in one notation, if it is a vector field, and what was set twice. -/
def decompose (convention : Convention) (s : List Char) : Option Components × List Repetition :=
  let compact := s.filter (· ≠ ' ')
  if mentionsMarker convention false (compact.map lowerChar) then
    let g := gather convention compact
    if g.components = .none then (.none, g.repetitions) else (some g.components, g.repetitions)
  else (.none, [])

end FieldPlot.Vectors
