import FieldPlot.Number.Written
import FieldPlot.Scalar.Basic

/-!
Colours as hexadecimal texts. Reading never fails, what is no number is black; a mix of two colours
is rounded channel by channel.
-/

namespace FieldPlot.Colour

structure Rgb where
  red : Int
  green : Int
  blue : Int
deriving DecidableEq, Repr

/-- The lowest three bytes of a number. -/
def Rgb.ofNumber (n : Int) : Rgb :=
  ⟨n / 65536 % 256, n / 256 % 256, n % 256⟩

/-- The colour of a text; three characters stand for their doubles. -/
def Rgb.ofChars (s : List Char) : Rgb :=
  let s := (Text.trim s).dropWhile (· = '#')
  let s := if s.length = 3 then s.flatMap fun c => [c, c] else s
  match Number.readHex? s with
  | some n => Rgb.ofNumber n
  | none => ⟨0, 0, 0⟩

/-- A channel in upper case hexadecimal digits, two at least. -/
def channelChars (n : Int) : List Char :=
  let digits := (Nat.toDigits 16 n.natAbs).map Char.toUpper
  if n < 0 then '-' :: digits else Number.padZeros 2 digits

def Rgb.toChars (c : Rgb) : List Char :=
  '#' :: channelChars c.red ++ channelChars c.green ++ channelChars c.blue

/-- The channel `t` of the way from `a` to `b`. -/
def mixChannel {α : Type} [Scalar α] (a b : Int) (t : α) : Except Fault Int :=
  Scalar.round? (Scalar.ofInt a + Scalar.ofInt (b - a) * t)

/-- The colour `t` of the way from `a` to `b`. -/
def Rgb.mix {α : Type} [Scalar α] (a b : Rgb) (t : α) : Except Fault Rgb := do
  return ⟨← mixChannel a.red b.red t, ← mixChannel a.green b.green t, ← mixChannel a.blue b.blue t⟩

/-- The mix of two colour texts as a text. -/
def mixChars {α : Type} [Scalar α] (a b : List Char) (t : α) : Except Fault (List Char) := do
  return (← (Rgb.ofChars a).mix (Rgb.ofChars b) t).toChars

end FieldPlot.Colour
