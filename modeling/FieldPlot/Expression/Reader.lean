import FieldPlot.Expression.Token
import FieldPlot.Expression.Tree

/-!
Reading a tree from tokens. The grammar is

    sum    := term (('+' | '-') term)*
    term   := power (('*' | '/') power)*
    power  := signed ('^' signed)?
    signed := ('-' | '+')? operand
    operand := number | variable | constant | function '(' sum (',' sum)? ')' | '(' sum ')'

and nothing is refused: where the tokens leave it, a reader takes 0 for what is missing, records an
issue and goes on. The only failure is nesting beyond a bound. Each reader is given the one for sums
a level further inside, and `sum` ties the knot by recursion on the levels that are left.
-/

namespace FieldPlot.Expression

/-- What a reader had to be lenient about. -/
inductive Issue
  | missingAtEnd
  | missingBefore (text : List Char) (start : Nat)
  | malformedNumber (text : List Char) (start : Nat)
  | unknownName (text : List Char) (start : Nat)
  | unknownFunction (text : List Char) (start : Nat)
  | unmatched (start : Nat)
  | unmatchedCall (text : List Char) (start : Nat)
  | unexpected (text : List Char) (start : Nat)
  | empty
deriving DecidableEq, Repr

namespace Issue

def position (start : Nat) : String :=
  " at position " ++ toString start

def message : Issue → String
  | missingAtEnd => "missing operand at end of expression"
  | missingBefore s n => "missing operand before '" ++ String.ofList s ++ "'" ++ position n
  | malformedNumber s n => "malformed number '" ++ String.ofList s ++ "'" ++ position n
  | unknownName s n => "unknown identifier '" ++ String.ofList s ++ "'" ++ position n
  | unknownFunction s n => "unknown function '" ++ String.ofList s ++ "'" ++ position n
  | unmatched n => "unmatched '('" ++ position n
  | unmatchedCall s n => "unmatched '(' after '" ++ String.ofList s ++ "'" ++ position n
  | unexpected s n => "unexpected '" ++ String.ofList s ++ "'" ++ position n
  | empty => "empty expression"

end Issue

/-- A piece of an expression that was read, and the tokens behind it. -/
structure Reading where
  tree : Tree Numeral
  issues : List Issue
  rest : List Token
deriving DecidableEq, Repr

/-- A reader has no result only where the nesting bound is exceeded. -/
abbrev Reader := List Token → Option Reading

/-- The numeral of a run of digits and dots; it needs a digit and takes at most one dot. -/
def Numeral.ofChars? (s : List Char) : Option Numeral :=
  let whole := s.takeWhile Char.isDigit
  let fraction := (s.dropWhile Char.isDigit).drop 1
  if (whole ++ fraction).isEmpty || !fraction.all Char.isDigit then none
  else some ⟨(whole ++ fraction).foldl (fun n c => 10 * n + (c.toNat - '0'.toNat)) 0, fraction.length⟩

/-- What a name in lower case stands for without an argument list. -/
def Tree.ofName? (name : List Char) : Option (Tree Numeral) :=
  match name with
  | ['x'] => some (.var .x)
  | ['y'] => some (.var .y)
  | ['z'] => some (.var .z)
  | ['p', 'i'] => some (.const .pi)
  | ['e'] => some (.const .euler)
  | _ => none

/-- The mark at the head of a token list. -/
def headMark? : List Token → Option Mark
  | ⟨.mark m, _⟩ :: _ => some m
  | _ => none

/-- `r` behind the closing bracket it should be followed by, or with `issue` if there is none. -/
def Reading.close (issue : Issue) (r : Reading) : Reading :=
  if headMark? r.rest = some .closing then { r with rest := r.rest.drop 1 }
  else { r with issues := r.issues ++ [issue] }

/-- The call of a name that is no function counts as 0, its arguments are only read. -/
def Reading.knownCall (f : Option Function) (name : List Char) (start : Nat)
    (tree : Function → Tree Numeral) (r : Reading) : Reading :=
  match f with
  | some f => { r with tree := tree f }
  | none => { r with tree := .zero, issues := r.issues ++ [.unknownFunction name start] }

/-- The call of `name`, whose arguments start at the head of the tokens. -/
def readCall (inner : Reader) (name : List Char) (start : Nat) : Reader := fun ts => do
  let f := Function.ofName? (name.map Char.toLower)
  let close := Reading.close (.unmatchedCall name start)
  let first ← inner ts
  if headMark? first.rest = some .comma then
    let second ← inner (first.rest.drop 1)
    let both : Reading := { second with issues := first.issues ++ second.issues }
    return (close both).knownCall f name start fun f => .callTwo f first.tree second.tree
  else
    return (close first).knownCall f name start fun f => .call f first.tree

def readOperand (inner : Reader) : Reader
  | [] => some ⟨.zero, [.missingAtEnd], []⟩
  | ⟨.mark .opening, start⟩ :: ts => (inner ts).map (Reading.close (.unmatched start))
  | ⟨.mark m, start⟩ :: ts => some ⟨.zero, [.missingBefore [m.char] start], ts⟩
  | ⟨.number s, start⟩ :: ts =>
    match Numeral.ofChars? s with
    | some n => some ⟨.literal n, [], ts⟩
    | none => some ⟨.zero, [.malformedNumber s start], ts⟩
  | ⟨.name s, start⟩ :: ts =>
    match Tree.ofName? (s.map Char.toLower) with
    | some tree => some ⟨tree, [], ts⟩
    | none =>
      if headMark? ts = some .opening then readCall inner s start (ts.drop 1)
      else some ⟨.zero, [.unknownName s start], ts⟩

/-- A sign binds tighter than the power: `-2^2` is the square of `-2`. -/
def readSigned (inner : Reader) : Reader := fun ts =>
  match headMark? ts with
  | some .minus => (readOperand inner (ts.drop 1)).map fun r => { r with tree := .negate r.tree }
  | some .plus => readOperand inner (ts.drop 1)
  | _ => readOperand inner ts

/-- `r` with a second operand `s` read behind it. -/
def Reading.join (op : Binary) (r s : Reading) : Reading :=
  ⟨.binary op r.tree s.tree, r.issues ++ s.issues, s.rest⟩

/-- A power is taken at most once: `2^3^2` ends before its second sign. -/
def readPower (inner : Reader) : Reader := fun ts => do
  let base ← readSigned inner ts
  if headMark? base.rest = some .power then
    return base.join .pow (← readSigned inner (base.rest.drop 1))
  else
    return base

/-- Joins further operands to `r` from the left as long as an operator of `op?` follows, at most
`fuel` times. -/
def readChain (operand : Reader) (op? : Mark → Option Binary) : (fuel : Nat) → Reading → Option Reading
  | 0, r => some r
  | fuel + 1, r =>
    match (headMark? r.rest).bind op? with
    | none => some r
    | some op => do readChain operand op? fuel (r.join op (← operand (r.rest.drop 1)))

def Binary.ofProductMark? : Mark → Option Binary
  | .times => some .mul
  | .divide => some .div
  | _ => none

def Binary.ofSumMark? : Mark → Option Binary
  | .plus => some .add
  | .minus => some .sub
  | _ => none

/-- An operand and all further ones; the tokens behind the first bound their number. -/
def readOperands (operand : Reader) (op? : Mark → Option Binary) : Reader := fun ts => do
  let first ← operand ts
  readChain operand op? first.rest.length first

def readTerm (inner : Reader) : Reader :=
  readOperands (readPower inner) Binary.ofProductMark?

/-- A sum that is nested at most `levels` deep. -/
def readSum : (levels : Nat) → Reader
  | 0 => fun _ => none
  | levels + 1 => readOperands (readTerm (readSum levels)) Binary.ofSumMark?

/-- The tokens that a sum left over; only the first of them is reported. -/
def Reading.finish (r : Reading) : List Issue :=
  match r.rest with
  | [] => r.issues
  | t :: _ => r.issues ++ [.unexpected t.text t.start]

end FieldPlot.Expression
