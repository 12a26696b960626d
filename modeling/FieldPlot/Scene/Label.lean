import FieldPlot.Scalar.Basic

/-!
Numbers on axes and scales. Large numbers lose their fraction, small ones are rounded to two places,
and what is close to zero is written as zero.
-/

namespace FieldPlot.Scene

variable {α : Type} [Scalar α]

/-- `a` rounded to a fixed number of places, a tie going to the even digit. -/
def fixedLabel (places : Nat) (a : α) : List Char :=
  Number.signChars (a < 0.0) (Number.fixedChars places (Scalar.roundAt places a).natAbs)

/-- The integer part of `a`. -/
def integerLabel (a : α) : List Char :=
  let n := Scalar.truncate a
  Number.signChars (n < 0) (Number.digitsOf n.natAbs)

/-- The text of a number. -/
def numberLabel (a : α) : List Char :=
  let size := Scalar.abs a
  if !Scalar.isFinite a then Scalar.text a
  else if size < 0.001 then ['0']
  else if a == Scalar.ofInt (Scalar.roundAt 0 a) && size < 1000.0 then integerLabel a
  else if 100.0 ≤ size then integerLabel a
  else if 10.0 ≤ size then fixedLabel 1 a
  else fixedLabel 2 a

end FieldPlot.Scene
