/-!
The named functions of an expression and the arithmetic they are evaluated in. `Arithmetic` holds
one operation for each sign and function and assumes nothing about them, so what is said of an
evaluation holds for every way of computing with numbers.
-/

namespace FieldPlot.Expression

inductive Function
  | abs | acos | asin | atan | atan2 | ceil | cos | cosh | exp | floor | ln | log | log10 | max
  | min | mod | pow | round | sign | sin | sinh | sqrt | tan | tanh
deriving DecidableEq, Repr

namespace Function

def name : Function → String
  | abs => "abs"
  | acos => "acos"
  | asin => "asin"
  | atan => "atan"
  | atan2 => "atan2"
  | ceil => "ceil"
  | cos => "cos"
  | cosh => "cosh"
  | exp => "exp"
  | floor => "floor"
  | ln => "ln"
  | log => "log"
  | log10 => "log10"
  | max => "max"
  | min => "min"
  | mod => "mod"
  | pow => "pow"
  | round => "round"
  | sign => "sign"
  | sin => "sin"
  | sinh => "sinh"
  | sqrt => "sqrt"
  | tan => "tan"
  | tanh => "tanh"

/-- Every function, in the order of their names. -/
def all : List Function :=
  [abs, acos, asin, atan, atan2, ceil, cos, cosh, exp, floor, ln, log, log10, max, min, mod, pow,
    round, sign, sin, sinh, sqrt, tan, tanh]

theorem mem_all (f : Function) : f ∈ all := by
  cases f <;> decide

/-- The function of a name in lower case. -/
def ofName? (name : List Char) : Option Function :=
  all.find? fun f => f.name.toList = name

end Function

/-- A written number: `mantissa / 10 ^ places`. -/
structure Numeral where
  mantissa : Nat
  places : Nat
deriving DecidableEq, Repr

/-- The primitives of an evaluation. `rounded` goes to the nearest whole number. -/
class Arithmetic (α : Type) where
  numeral : Numeral → α
  pi : α
  euler : α
  neg : α → α
  add : α → α → α
  sub : α → α → α
  mul : α → α → α
  div : α → α → α
  pow : α → α → α
  sin : α → α
  cos : α → α
  tan : α → α
  asin : α → α
  acos : α → α
  atan : α → α
  atan2 : α → α → α
  sinh : α → α
  cosh : α → α
  tanh : α → α
  exp : α → α
  log : α → α
  log10 : α → α
  sqrt : α → α
  abs : α → α
  floor : α → α
  ceil : α → α
  rounded : α → α
  sign : α → α
  minimum : α → α → α
  maximum : α → α → α
  mod : α → α → α

namespace Arithmetic

variable {α : Type} [Arithmetic α]

def zero : α := numeral ⟨0, 0⟩

def one : α := numeral ⟨1, 0⟩

end Arithmetic

/-- The value of a function at `a` and, where one is given, `b`. Without it `atan2`, `pow` and `mod`
take 1 and `min` and `max` return `a`; the functions of one argument never look at it. -/
def Function.apply {α : Type} [Arithmetic α] (f : Function) (a : α) (b : Option α) : α :=
  match f with
  | .sin => Arithmetic.sin a
  | .cos => Arithmetic.cos a
  | .tan => Arithmetic.tan a
  | .asin => Arithmetic.asin a
  | .acos => Arithmetic.acos a
  | .atan => Arithmetic.atan a
  | .atan2 => Arithmetic.atan2 a (b.getD Arithmetic.one)
  | .sinh => Arithmetic.sinh a
  | .cosh => Arithmetic.cosh a
  | .tanh => Arithmetic.tanh a
  | .exp => Arithmetic.exp a
  | .log => Arithmetic.log a
  | .ln => Arithmetic.log a
  | .log10 => Arithmetic.log10 a
  | .sqrt => Arithmetic.sqrt a
  | .abs => Arithmetic.abs a
  | .floor => Arithmetic.floor a
  | .ceil => Arithmetic.ceil a
  | .round => Arithmetic.rounded a
  | .sign => Arithmetic.sign a
  | .min => (b.map (Arithmetic.minimum a)).getD a
  | .max => (b.map (Arithmetic.maximum a)).getD a
  | .pow => Arithmetic.pow a (b.getD Arithmetic.one)
  | .mod => Arithmetic.mod a (b.getD Arithmetic.one)

end FieldPlot.Expression
