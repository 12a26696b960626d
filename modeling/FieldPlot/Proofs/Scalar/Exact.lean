import Mathlib
import FieldPlot.Expression.Function
import FieldPlot.Scalar.Basic

/-! Exact numbers: scalars that form an ordered field. Which of them count as finite, and what the
functions beyond the field operations are, is left open. -/

namespace FieldPlot

class ExactScalar (α : Type) extends Scalar α, Field α, LinearOrder α, IsStrictOrderedRing α where
  beq_eq (a b : α) : (a == b) = decide (a = b)
  scientific_eq (m e : Nat) :
    @OfScientific.ofScientific α Scalar.toOfScientific m true e = (m : α) / 10 ^ e

namespace Scalar

variable {α : Type} [ExactScalar α]

theorem literal_zero : @OfScientific.ofScientific α Scalar.toOfScientific 0 true 1 = 0 := by
  rw [ExactScalar.scientific_eq]
  simp

theorem divide_of_ne_zero {a b : α} (hb : b ≠ 0) : divide a b = .ok (a / b) := by
  rw [divide, ExactScalar.beq_eq, literal_zero, decide_eq_false hb]
  rfl

end Scalar

/-- The fraction that a decimal text stands for. -/
def Number.Written.toRat : Number.Written → ℚ
  | decimal negative m e => (if negative then -1 else 1) * m * 10 ^ e
  | infinite _ | undefined => 0

theorem ratLiteral_eq (m e : Nat) : (OfScientific.ofScientific m true e : ℚ) = m / 10 ^ e := by
  show Rat.ofScientific m true e = _
  rw [Rat.ofScientific_true_def, Rat.mkRat_eq_div]
  norm_num

/-- The nearest integer, a tie going to the even one. -/
def nearestEven (a : ℚ) : ℤ :=
  if a - ⌊a⌋ = 1 / 2 then 2 * ((⌊a⌋ + 1) / 2) else round a

/-- Fractions. What has no rational value in general, as a root or an angle, is 0. -/
instance : ExactScalar ℚ where
  __ := (inferInstance : Field ℚ)
  __ := (inferInstance : LinearOrder ℚ)
  __ := (inferInstance : IsStrictOrderedRing ℚ)
  beq a b := decide (a = b)
  ofScientific := OfScientific.ofScientific
  isBounded := false
  decLt := inferInstance
  decLe := inferInstance
  isFinite _ := true
  ofInt n := n
  floor a := ⌊a⌋
  roundAt places a := nearestEven (a * 10 ^ places)
  abs a := |a|
  sqrt _ := 0
  cos _ := 0
  sin _ := 0
  log10 _ := 0
  tenTo n := 10 ^ n
  hypot _ _ := 0
  atan2 _ _ := 0
  pi := 0
  ofWritten := Number.Written.toRat
  text _ := []
  beq_eq _ _ := rfl
  scientific_eq := ratLiteral_eq

/-- The power with a whole exponent. -/
def wholePower (a b : ℚ) : ℚ :=
  if b.den = 1 then a ^ b.num else 0

instance : Expression.Arithmetic ℚ where
  numeral n := n.mantissa / 10 ^ n.places
  pi := 0
  euler := 0
  neg a := -a
  add a b := a + b
  sub a b := a - b
  mul a b := a * b
  div a b := a / b
  pow := wholePower
  sin _ := 0
  cos _ := 0
  tan _ := 0
  asin _ := 0
  acos _ := 0
  atan _ := 0
  atan2 _ _ := 0
  sinh _ := 0
  cosh _ := 0
  tanh _ := 0
  exp _ := 0
  log _ := 0
  log10 _ := 0
  sqrt _ := 0
  abs a := |a|
  floor a := ⌊a⌋
  ceil a := ⌈a⌉
  rounded a := if a < 0 then -⌊-a + 1 / 2⌋ else ⌊a + 1 / 2⌋
  sign a := if 0 < a then 1 else if a < 0 then -1 else 0
  minimum a b := min a b
  maximum a b := max a b
  mod a b := a - b * ⌊a / b⌋

end FieldPlot
