import FieldPlot.Expression.Function
import FieldPlot.Number.Written

/-!
The arithmetic of doubles. No operation fails: a division by zero, an argument outside a function's
domain or an overflow gives an infinity or NaN. Of two zeros the second one is taken both as the smaller
and as the larger.
-/

namespace FieldPlot.Expression

open Number

/-- The remainder with the sign of the divisor. A zero remainder takes that sign, too. -/
def modulo (a b : Float) : Float :=
  let r := remainder a b
  if b == 0.0 then r
  else if r == 0.0 then withSign (isNegative b) 0.0
  else if (b < 0.0) != (r < 0.0) then r + b
  else r

/-- The power. A root, a square and a reciprocal are taken as such, which settles the root of the
negative zero and of the negative infinity. -/
def power (a b : Float) : Float :=
  if b == 0.5 then a.sqrt
  else if b == 2.0 then a * a
  else if b == -1.0 then 1.0 / a
  else Float.pow a b

instance : Arithmetic Float where
  numeral n := ofDecimal n.mantissa (-n.places)
  pi := 3.141592653589793
  euler := 2.718281828459045
  neg a := -a
  add a b := a + b
  sub a b := a - b
  mul a b := a * b
  div a b := a / b
  pow := power
  sin := Float.sin
  cos := Float.cos
  tan := Float.tan
  asin := Float.asin
  acos := Float.acos
  atan := Float.atan
  atan2 := Float.atan2
  sinh := Float.sinh
  cosh := Float.cosh
  tanh := Float.tanh
  exp := Float.exp
  log := Float.log
  log10 := Float.log10
  sqrt := Float.sqrt
  abs := Float.abs
  floor := Float.floor
  ceil := Float.ceil
  rounded a := withSign (isNegative a) (Float.abs (Float.floor (Float.abs a + 0.5)))
  sign a := if a > 0.0 then 1.0 else if a < 0.0 then -1.0 else if a == 0.0 then 0.0 else a
  minimum a b := if a < b || a.isNaN then a else b
  maximum a b := if a > b || a.isNaN then a else b
  mod := modulo

end FieldPlot.Expression
