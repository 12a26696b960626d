import FieldPlot.Expression.Reader

/-!
An expression as it is read once and evaluated anywhere. Reading fixes the tree and the issues, so
neither depends on the point, and a nesting that is too deep shows at every point or at none.
-/

namespace FieldPlot.Expression

/-- Levels of brackets that a sum may hold, itself included. -/
def nestingLimit : Nat := 191

structure Parsed where
  tree : Tree Numeral
  issues : List Issue
deriving DecidableEq, Repr

/-- The expression of a text; none if it is nested beyond `limit`. -/
def Parsed.ofCharsWithin? (limit : Nat) (s : List Char) : Option Parsed :=
  (readSum limit (tokens s)).map fun r => ⟨r.tree, r.finish⟩

def Parsed.ofChars? (s : List Char) : Option Parsed :=
  Parsed.ofCharsWithin? nestingLimit s

/-- The value of the expression at a point. -/
def Parsed.value {α : Type} [Arithmetic α] (e : Parsed) (p : Point α) : α :=
  (e.tree.map Arithmetic.numeral).eval p

/-- Whether the letter `v`, in either case, occurs in `s` with no letter beside it; `afterLetter`
tells whether a letter precedes `s`. -/
def standsAlone (v : Char) (afterLetter : Bool) : List Char → Bool
  | [] => false
  | c :: s =>
    (!afterLetter && c.toLower = v && !(s.head?.any Char.isAlpha)) || standsAlone v c.isAlpha s

def usesY (s : List Char) : Bool :=
  standsAlone 'y' false s

def usesZ (s : List Char) : Bool :=
  standsAlone 'z' false s

end FieldPlot.Expression
