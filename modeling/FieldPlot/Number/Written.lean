import FieldPlot.Number.Decimal
import FieldPlot.Text.Blank
import FieldPlot.Text.Numeral

/-!
Numbers as they are written in a text. The decimal digits of every script count, blanks around the
number are skipped, and a single underscore may stand between two digits.
-/

namespace FieldPlot.Number

/-- The double nearest to `mantissa * 10 ^ exponent`. The number of digits tells early that a value
is out of range, before its power of ten is computed. -/
def ofDecimal (mantissa : Nat) (exponent : Int) : Float :=
  let size := exponent + (digitsOf mantissa).length
  if mantissa = 0 || size < -400 then 0.0
  else if 400 < size then infinity
  else
    let (num, den) := scaleTen mantissa 1 exponent
    nearest num den

/-- A number that was read from a text. -/
inductive Written
  | decimal (negative : Bool) (mantissa : Nat) (exponent : Int)
  | infinite (negative : Bool)
  | undefined
deriving DecidableEq, Repr

def Written.toFloat : Written → Float
  | decimal negative m e => withSign negative (ofDecimal m e)
  | infinite negative => withSign negative infinity
  | undefined => Number.undefined

/-- A character as number texts know it: digits of any script as ASCII digits, blanks as spaces. -/
def plainChar (c : Char) : Char :=
  if c.toNat < 0x80 then c
  else if Text.isBlank c then ' '
  else match Text.decimalValue? c with
    | some d => Nat.digitChar d
    | none => '?'

def plainChars (s : List Char) : List Char :=
  Text.trimBoth Text.isNumericBlank (s.map plainChar)

/-- `s` without its underscores, if each of them stands between two characters of `isDigit`;
`afterDigit` tells whether one precedes `s`. -/
def dropUnderscores? (isDigit : Char → Bool) (afterDigit : Bool) : List Char → Option (List Char)
  | [] => some []
  | '_' :: s =>
    if afterDigit && s.head?.any isDigit then dropUnderscores? isDigit false s else none
  | c :: s => (dropUnderscores? isDigit (isDigit c) s).map (c :: ·)

/-- The sign of a number and what follows it. -/
def splitSign : List Char → Bool × List Char
  | '-' :: s => (true, s)
  | '+' :: s => (false, s)
  | s => (false, s)

def natOf (base : Nat) (digits : List Char) : Nat :=
  digits.foldl (fun n c =>
    base * n + (if c.isDigit then c.toNat - '0'.toNat else c.toLower.toNat - 'a'.toNat + 10)) 0

/-- An exponent part; the empty text is the exponent 0. -/
def readExponent? : List Char → Option Int
  | [] => some 0
  | c :: s =>
    let (negative, digits) := splitSign s
    if c.toLower = 'e' && !digits.isEmpty && digits.all Char.isDigit then
      some (if negative then -(natOf 10 digits : Int) else natOf 10 digits)
    else none

/-- The fraction after a point, and what follows it. -/
def splitFraction : List Char → List Char × List Char
  | '.' :: s => (s.takeWhile Char.isDigit, s.dropWhile Char.isDigit)
  | s => ([], s)

/-- A real number: digits with at most one point and an exponent, an infinity or NaN. -/
def readReal? (s : List Char) : Option Written := do
  let s ← dropUnderscores? Char.isDigit false (plainChars s)
  let (negative, body) := splitSign s
  let word := String.ofList (body.map Char.toLower)
  if word = "inf" || word = "infinity" then return .infinite negative
  else if word = "nan" then return .undefined
  else
    let whole := body.takeWhile Char.isDigit
    let (fraction, rest) := splitFraction (body.dropWhile Char.isDigit)
    if (whole ++ fraction).isEmpty then none
    else
      let exponent ← readExponent? rest
      return .decimal negative (natOf 10 (whole ++ fraction)) (exponent - fraction.length)

/-- Longest run of digits that is read as a decimal integer. -/
def integerDigitLimit : Nat := 4300

/-- A signed decimal integer. -/
def readInteger? (s : List Char) : Option Int := do
  let (negative, body) := splitSign (plainChars s)
  let digits ← dropUnderscores? Char.isDigit false body
  if digits.isEmpty || !digits.all Char.isDigit || integerDigitLimit < digits.length then none
  else return if negative then -(natOf 10 digits : Int) else natOf 10 digits

def isHexDigit (c : Char) : Bool :=
  c.isDigit || ('a' ≤ c.toLower && c.toLower ≤ 'f')

/-- What follows a mark `0x`, and an underscore behind it. -/
def dropHexMark : List Char → List Char
  | '0' :: x :: '_' :: s => if x.toLower = 'x' then s else '0' :: x :: '_' :: s
  | '0' :: x :: s => if x.toLower = 'x' then s else '0' :: x :: s
  | s => s

/-- A signed hexadecimal integer, with or without the mark `0x`. -/
def readHex? (s : List Char) : Option Int := do
  let (negative, body) := splitSign (plainChars s)
  let digits ← dropUnderscores? isHexDigit false (dropHexMark body)
  if digits.isEmpty || !digits.all isHexDigit then none
  else return if negative then -(natOf 16 digits : Int) else natOf 16 digits

end FieldPlot.Number
