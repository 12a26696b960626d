import FieldPlot.Fault
import FieldPlot.Number.Written

/-!
The numbers that a plot is computed in. Geometry, sampling and scenes are written over any type with
these operations: doubles run, and exact numbers are reasoned about. A division that must not meet a
zero is `divide`, which faults on it.
-/

namespace FieldPlot

class Scalar (α : Type) extends Add α, Sub α, Mul α, Div α, Neg α, LT α, LE α, BEq α,
    OfScientific α where
  /-- Whether the numbers, and the lists of them, are those of a machine, which bounds their size. -/
  isBounded : Bool
  decLt (a b : α) : Decidable (a < b)
  decLe (a b : α) : Decidable (a ≤ b)
  /-- Neither an infinity nor NaN. -/
  isFinite : α → Bool
  ofInt : Int → α
  floor : α → Int
  /-- The integer nearest to `10 ^ places` times the number, a tie going to the even one. -/
  roundAt : (places : Nat) → α → Int
  abs : α → α
  sqrt : α → α
  cos : α → α
  sin : α → α
  log10 : α → α
  tenTo : Int → α
  hypot : α → α → α
  /-- The angle of the point `(x, y)`, with `y` first. -/
  atan2 : α → α → α
  pi : α
  ofWritten : Number.Written → α
  /-- The shortest text that reads back as the number. -/
  text : α → List Char

namespace Scalar

variable {α : Type} [Scalar α]

instance (a b : α) : Decidable (a < b) :=
  decLt a b

instance (a b : α) : Decidable (a ≤ b) :=
  decLe a b

/-- Whether the number has no order, as NaN. -/
def isUndefined (a : α) : Bool :=
  !(a == a)

/-- The larger number; the first one if they have no order. -/
def larger (a b : α) : α :=
  if a < b then b else a

/-- The smaller number; the first one if they have no order. -/
def smaller (a b : α) : α :=
  if b < a then b else a

def clamp (a lo hi : α) : α :=
  larger lo (smaller hi a)

def clampUnit (a : α) : α :=
  clamp a 0.0 1.0

/-- The number itself where it is finite. -/
def finite? (a : α) : Option α :=
  if isFinite a then some a else none

def divide (a b : α) : Except Fault α :=
  if b == 0.0 then .error .divisionByZero else .ok (a / b)

def ofNat (n : Nat) : α :=
  ofInt n

/-- No number of a machine reaches this size. -/
def integerBound : Nat :=
  Nat.pow 2 1024 - Nat.pow 2 970

/-- An integer as a number, if there is one of its size. -/
def ofInt? (n : Int) : Except Fault α :=
  if isBounded α && integerBound ≤ n.natAbs then .error .integerTooLarge else .ok (ofInt n)

/-- The bound of the addresses of a machine. -/
def addressBound : Nat :=
  Nat.pow 2 63

/-- The bound of the addresses that a machine gives to a program. -/
def memoryBound : Nat :=
  Nat.pow 2 47

/-- The length of a list of `n` numbers; a negative one counts as 0. Its size is compared as a number of
53 bits, and what is as large as the bound in this sense wraps around to nothing. Lists of more bytes
than there are addresses do not exist. -/
def listLength (α : Type) [Scalar α] (n : Int) : Except Fault Nat :=
  if !isBounded α then .ok n.toNat
  else if addressBound + 1024 < n.natAbs then .error .listTooLong
  else if n ≤ addressBound - 512 - 1 && (addressBound : Int) ≤ 8 * n then .error .listTooLong
  else if n ≤ addressBound - 512 - 1 && (memoryBound : Int) ≤ 8 * n then .error .outOfMemory
  else .ok (if n ≤ addressBound - 512 - 1 then n.toNat else 0)

/-- A finite number for an integer operation. -/
def whole (f : α → Int) (a : α) : Except Fault Int :=
  if isFinite a then .ok (f a) else if isUndefined a then .error .undefinedInteger
  else .error .infiniteInteger

/-- The largest integer not above `a`. -/
def floor? (a : α) : Except Fault Int :=
  whole floor a

/-- The smallest integer not below `a`. -/
def ceil? (a : α) : Except Fault Int :=
  whole (fun a => -floor (-a)) a

/-- The integer part, toward zero. -/
def truncate (a : α) : Int :=
  if a < 0.0 then -floor (-a) else floor a

def truncate? (a : α) : Except Fault Int :=
  whole truncate a

/-- The nearest integer, a tie going to the even one. -/
def round? (a : α) : Except Fault Int :=
  whole (roundAt 0) a

/-- The cosine and sine of a finite angle; NaN has them, an infinity does not. -/
def turn (angle : α) : Except Fault (α × α) :=
  if isFinite angle || isUndefined angle then .ok (cos angle, sin angle) else .error .outsideDomain

/-- The power of ten just below or at a positive number. -/
def decade (a : α) : Except Fault α :=
  if 0.0 < a then do return tenTo (← floor? (log10 a)) else .error .outsideDomain

/-- The smallest number of a nonempty list, the first of equal ones. -/
def smallest? : List α → Option α
  | [] => none
  | a :: s => some (s.foldl smaller a)

/-- The largest number of a nonempty list, the first of equal ones. -/
def largest? : List α → Option α
  | [] => none
  | a :: s => some (s.foldl larger a)

end Scalar

end FieldPlot
