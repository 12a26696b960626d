import FieldPlot.Scalar.Basic

/-!
Doubles as scalars. Comparison is that of IEEE 754, so NaN is below nothing and equals nothing.
-/

namespace FieldPlot

open Number

/-- The distance from the origin, without overflow on the way. -/
def hypotenuse (a b : Float) : Float :=
  let a := a.abs
  let b := b.abs
  let long := if a < b then b else a
  if a == infinity || b == infinity then infinity
  else if long == 0.0 then long
  else
    let x := a / long
    let y := b / long
    long * Float.sqrt (x * x + y * y)

instance : Scalar Float where
  isBounded := true
  decLt a b := inferInstanceAs (Decidable (a < b))
  decLe a b := inferInstanceAs (Decidable (a ≤ b))
  isFinite := Float.isFinite
  ofInt := ofInteger
  floor x := (decode x).floor
  roundAt places x := (decode x).roundAt places
  abs := Float.abs
  sqrt := Float.sqrt
  cos := Float.cos
  sin := Float.sin
  log10 := Float.log10
  tenTo n := Float.pow 10.0 (ofInteger n)
  hypot := hypotenuse
  atan2 := Float.atan2
  pi := 3.141592653589793
  ofWritten := Written.toFloat
  text := shortest

end FieldPlot
