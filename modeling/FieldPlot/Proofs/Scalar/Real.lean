import FieldPlot.Proofs.Scalar.Lawful

/-! The real numbers as exact ones. Among them roots, angles and logarithms have the values that they are named
for, so that a statement about every kind of exact number which asks something of these holds of one. -/

namespace FieldPlot

/-- The nearest integer, a tie going to the even one. -/
noncomputable def nearestEvenReal (a : ℝ) : ℤ :=
  if Int.fract a = 1 / 2 then 2 * ((⌊a⌋ + 1) / 2) else round a

noncomputable instance : ExactScalar ℝ where
  __ := (inferInstance : Field ℝ)
  __ := (inferInstance : LinearOrder ℝ)
  __ := (inferInstance : IsStrictOrderedRing ℝ)
  beq a b := decide (a = b)
  ofScientific := OfScientific.ofScientific
  isBounded := false
  decLt := inferInstance
  decLe := inferInstance
  isFinite _ := true
  ofInt n := n
  floor a := ⌊a⌋
  roundAt places a := nearestEvenReal (a * 10 ^ places)
  abs a := |a|
  sqrt := Real.sqrt
  cos := Real.cos
  sin := Real.sin
  log10 := Real.logb 10
  tenTo n := 10 ^ n
  hypot a b := Real.sqrt (a ^ 2 + b ^ 2)
  atan2 y x := Complex.arg ⟨x, y⟩
  pi := Real.pi
  ofWritten w := w.toRat
  text _ := []
  beq_eq _ _ := rfl
  scientific_eq m e := by
    rw [← Rat.cast_ofScientific, ratLiteral_eq]
    push_cast
    rfl

noncomputable instance : LawfulScalar ℝ where
  isBounded_eq := rfl
  isFinite_eq _ := rfl
  ofInt_eq _ := rfl
  tenTo_eq _ := rfl
  abs_eq _ := rfl

noncomputable instance : Expression.Arithmetic ℝ where
  numeral n := n.mantissa / 10 ^ n.places
  pi := Real.pi
  euler := Real.exp 1
  neg a := -a
  add a b := a + b
  sub a b := a - b
  mul a b := a * b
  div a b := a / b
  pow a b := a ^ b
  sin := Real.sin
  cos := Real.cos
  tan := Real.tan
  asin := Real.arcsin
  acos := Real.arccos
  atan := Real.arctan
  atan2 y x := Complex.arg ⟨x, y⟩
  sinh := Real.sinh
  cosh := Real.cosh
  tanh := Real.tanh
  exp := Real.exp
  log := Real.log
  log10 := Real.logb 10
  sqrt := Real.sqrt
  abs a := |a|
  floor a := ⌊a⌋
  ceil a := ⌈a⌉
  rounded a := if a < 0 then -⌊-a + 1 / 2⌋ else ⌊a + 1 / 2⌋
  sign a := if 0 < a then 1 else if a < 0 then -1 else 0
  minimum a b := min a b
  maximum a b := max a b
  mod a b := a - b * ⌊a / b⌋

end FieldPlot
