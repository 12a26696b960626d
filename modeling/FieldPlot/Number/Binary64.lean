import FieldPlot.Number.Rounding

/-!
Doubles as exact numbers. `decode` reads the fields of a finite double, `nearest` goes back from a
quotient of naturals by one correct rounding. What is exact on doubles by definition (floors,
remainders, rounding to an integer) is computed on the decoded numbers.
-/

namespace FieldPlot.Number

/-- The number `± mantissa * 2 ^ exponent`. -/
structure Dyadic where
  negative : Bool
  mantissa : Nat
  exponent : Int
deriving Repr, DecidableEq

namespace Dyadic

/-- The absolute value as a quotient of naturals. -/
def ratio (d : Dyadic) : Nat × Nat :=
  scaleTwo d.mantissa 1 d.exponent

/-- The largest integer not above the number. -/
def floor (d : Dyadic) : Int :=
  let (num, den) := d.ratio
  if d.negative then -(((num + den - 1) / den : Nat) : Int) else ((num / den : Nat) : Int)

/-- The integer nearest to `10 ^ places` times the number; a tie goes to the even neighbour. -/
def roundAt (places : Nat) (d : Dyadic) : Int :=
  let (num, den) := d.ratio
  let n := (roundDiv (num * Nat.pow 10 places) den : Int)
  if d.negative then -n else n

end Dyadic

def infinity : Float := 1.0 / 0.0

def undefined : Float := 0.0 / 0.0

/-- The fields of a finite double. -/
def decode (x : Float) : Dyadic :=
  let bits : Nat := x.toBits.toNat
  let field : Nat := bits / Nat.pow 2 52 % Nat.pow 2 11
  let fraction : Nat := bits % Nat.pow 2 52
  { negative := bits / Nat.pow 2 63 == 1
    mantissa := if field = 0 then fraction else fraction + Nat.pow 2 52
    exponent := if field = 0 then -1074 else (field : Int) - 1075 }

/-- Whether the sign bit is set, also of a zero. -/
def isNegative (x : Float) : Bool :=
  x.toBits.toNat / Nat.pow 2 63 == 1

/-- The double `mantissa * 2 ^ exponent`, for a mantissa of at most 53 bits and an exponent of at
least -1074, which is exactly -1074 if the mantissa has fewer than 53 bits. -/
def encode (mantissa : Nat) (exponent : Int) : Float :=
  let bits := (exponent + 1074).toNat * Nat.pow 2 52 + mantissa
  if 0x7FF * Nat.pow 2 52 ≤ bits then infinity else Float.ofBits (UInt64.ofNat bits)

/-- The double nearest to `num / den`; a tie goes to the even mantissa, and what is too large for a
double becomes infinite. -/
def nearest (num den : Nat) : Float :=
  if num = 0 || den = 0 then 0.0
  else
    let guess : Int := (num.log2 : Int) - den.log2 - 52
    let (n, d) := scaleTwo num den (-guess)
    let exponent := max (if n < d * Nat.pow 2 52 then guess - 1 else guess) (-1074)
    let (n, d) := scaleTwo num den (-exponent)
    encode (roundDiv n d) exponent

def withSign (negative : Bool) (x : Float) : Float :=
  if negative then -x else x

/-- The double nearest to an integer. -/
def ofInteger (n : Int) : Float :=
  withSign (n < 0) (nearest n.natAbs 1)

/-- The remainder of truncating division, with the sign of `a`. It is exact. -/
def remainder (a b : Float) : Float :=
  if !a.isFinite || b.isNaN || b == 0.0 then undefined
  else if !b.isFinite then a
  else
    let x := decode a
    let y := decode b
    let base := min x.exponent y.exponent
    let m := x.mantissa * Nat.pow 2 (x.exponent - base).toNat
    let n := y.mantissa * Nat.pow 2 (y.exponent - base).toNat
    let (num, den) := scaleTwo (m % n) 1 base
    withSign x.negative (nearest num den)

end FieldPlot.Number
