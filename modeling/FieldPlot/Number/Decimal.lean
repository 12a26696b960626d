import FieldPlot.Number.Binary64

/-!
Decimal texts of doubles. Three layouts are written here: a fixed number of places, a fixed number
of significant digits, and the fewest digits that read back as the same double. All digits come from
exact integer arithmetic on the decoded double.
-/

namespace FieldPlot.Number

def digitsOf (n : Nat) : List Char :=
  Nat.toDigits 10 n

/-- `digits` behind as many zeros as fill `width`. -/
def padZeros (width : Nat) (digits : List Char) : List Char :=
  List.replicate (width - digits.length) '0' ++ digits

/-- `s` without the zeros at its end. -/
def dropEndZeros (s : List Char) : List Char :=
  (s.reverse.dropWhile (· = '0')).reverse

/-- The text of `n / 10 ^ places` with exactly that many places. -/
def fixedChars (places n : Nat) : List Char :=
  let digits := padZeros (places + 1) (digitsOf n)
  let whole := digits.take (digits.length - places)
  if places = 0 then whole else whole ++ '.' :: digits.drop (digits.length - places)

/-- What is written for a number that is not finite. -/
def specialChars (x : Float) : List Char :=
  if x.isNaN then ['n', 'a', 'n']
  else if x < 0.0 then ['-', 'i', 'n', 'f']
  else ['i', 'n', 'f']

def signChars (negative : Bool) (s : List Char) : List Char :=
  if negative then '-' :: s else s

/-- The text of `x` with exactly `places` places; a tie goes to the even digit. -/
def fixed (places : Nat) (x : Float) : List Char :=
  if x.isFinite then
    signChars (isNegative x) (fixedChars places ((decode x).roundAt places).natAbs)
  else specialChars x

/-- The largest `e` with `10 ^ e ≤ num / den`, for positive `num` and `den`. The binary logarithms
give it up to one. -/
def floorLogTen (num den : Nat) : Int :=
  let guess := ((num.log2 : Int) - den.log2) * 30103 / 100000
  let reaches (e : Int) : Bool :=
    let (n, d) := scaleTen num den (-e)
    d ≤ n
  if reaches (guess + 1) then guess + 1 else if reaches guess then guess else guess - 1

/-- A decimal number `0.d₁d₂d₃… * 10 ^ point`. -/
structure Digits where
  digits : List Char
  point : Int

/-- The `count` leading digits of `num / den`, correctly rounded. -/
def leadingDigits (count num den : Nat) : Digits :=
  let e := floorLogTen num den
  let (n, d) := scaleTen num den ((count : Int) - 1 - e)
  let rounded := roundDiv n d
  if rounded < Nat.pow 10 count then ⟨digitsOf rounded, e + 1⟩ else ⟨digitsOf (rounded / 10), e + 2⟩

/-- An exponent with its sign and at least two digits. -/
def exponentChars (e : Int) : List Char :=
  'e' :: (if e < 0 then '-' else '+') :: padZeros 2 (digitsOf e.natAbs)

namespace Digits

/-- The digits with the point at its place, padded with zeros where it falls outside of them. -/
def positional (d : Digits) (fraction : List Char → List Char) : List Char :=
  if d.point ≤ 0 then '0' :: fraction (List.replicate (-d.point).toNat '0' ++ d.digits)
  else
    let n := d.point.toNat
    d.digits.take n ++ List.replicate (n - d.digits.length) '0' ++ fraction (d.digits.drop n)

/-- One digit before the point and the exponent after the others. -/
def scientific (d : Digits) (fraction : List Char → List Char) : List Char :=
  d.digits.take 1 ++ fraction (d.digits.drop 1) ++ exponentChars (d.point - 1)

end Digits

/-- The part after the point; nothing at all if there are no digits. -/
def fractionChars (s : List Char) : List Char :=
  if s.isEmpty then [] else '.' :: s

/-- The text of `x` to `count` significant digits without zeros at the end; positional for decimal
exponents from -4 up to `count - 1`. -/
def general (count : Nat) (x : Float) : List Char :=
  if !x.isFinite then specialChars x
  else if x == 0.0 then signChars (isNegative x) ['0']
  else
    let (num, den) := (decode x).ratio
    let d := leadingDigits count num den
    let d : Digits := ⟨dropEndZeros d.digits, d.point⟩
    let positional := -4 < d.point && d.point ≤ count
    signChars (isNegative x)
      (if positional then d.positional fractionChars else d.scientific fractionChars)

/-- Bounds of the reals that round to a double, in units of a quarter of its last place. -/
structure Interval where
  lower : Nat
  upper : Nat
  closed : Bool

def roundingInterval (d : Dyadic) : Interval :=
  { lower := 4 * d.mantissa - (if d.mantissa = Nat.pow 2 52 && -1074 < d.exponent then 1 else 2)
    upper := 4 * d.mantissa + 2
    closed := d.mantissa % 2 = 0 }

/-- The decimals with `count` digits next to the double that round to it, the nearer one if both do,
and the even one if they are equally near. -/
def shortDecimal? (d : Dyadic) (count : Nat) : Option Digits :=
  let (num, den) := d.ratio
  let e := floorLogTen num den
  let (n, m) := scaleTen num den ((count : Int) - 1 - e)
  let within (c : Nat) : Bool :=
    let bounds := roundingInterval d
    let (unit, part) := scaleTwo 1 1 (d.exponent - 2)
    let (a, b) := scaleTen c 1 (e + 1 - (count : Int))
    let lower := bounds.lower * unit * b
    let upper := bounds.upper * unit * b
    let value := a * part
    if bounds.closed then lower ≤ value && value ≤ upper else lower < value && value < upper
  let below := n / m
  let nearer := roundDiv n m
  let other := if nearer = below then below + 1 else below
  let result (c : Nat) : Digits :=
    if c < Nat.pow 10 count then ⟨digitsOf c, e + 1⟩ else ⟨digitsOf (c / 10), e + 2⟩
  if within nearer then some (result nearer)
  else if within other then some (result other)
  else none

/-- The fewest digits that read back as `d`; seventeen always do. -/
def shortestDigits (d : Dyadic) : Digits :=
  ((List.range 17).findSome? fun k => shortDecimal? d (k + 1)).getD
    (leadingDigits 17 d.ratio.1 d.ratio.2)

/-- The shortest text that reads back as `x`. A whole number keeps one zero after the point, and
exponents below -4 or above 15 are written as such. -/
def shortest (x : Float) : List Char :=
  if !x.isFinite then specialChars x
  else if x == 0.0 then signChars (isNegative x) ['0', '.', '0']
  else
    let d := shortestDigits (decode x)
    let d : Digits := ⟨dropEndZeros d.digits, d.point⟩
    let body :=
      if -4 < d.point && d.point ≤ 16 then
        d.positional fun s => '.' :: (if s.isEmpty then ['0'] else s)
      else d.scientific fractionChars
    signChars (isNegative x) body

end FieldPlot.Number
