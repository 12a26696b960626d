import FieldPlot.Colour.Hex

/-!
Gradients, written as colour stops `#RRGGBB@position` between commas. Stops without a position are
spread evenly, and the first and the last stop reach to the ends of the unit interval.
-/

namespace FieldPlot.Colour

/-- A colour text and its position. -/
structure Stop (α : Type) where
  colour : List Char
  position : α
deriving Repr

/-- The parts of a text between the characters `separator`. -/
def splitAt (separator : Char) : List Char → List (List Char)
  | [] => [[]]
  | c :: s =>
    if c = separator then [] :: splitAt separator s
    else match splitAt separator s with
      | [] => [[c]]
      | part :: parts => (c :: part) :: parts

/-- A stop as it is written; a position that is missing or no number is left open. -/
structure OpenStop (α : Type) where
  colour : List Char
  position : Option α

section

variable {α : Type} [Scalar α]

def OpenStop.ofChars (s : List Char) : OpenStop α :=
  if s.contains '@' then
    ⟨Text.trim (s.takeWhile (· ≠ '@')),
      (Number.readReal? ((s.dropWhile (· ≠ '@')).drop 1)).map Scalar.ofWritten⟩
  else ⟨s, none⟩

/-- Positions for the open stops, evenly spread in their order; `order` of the `count` open ones come
before these. -/
def spread (count : Nat) (order : Nat) : List (OpenStop α) → Except Fault (List (Stop α))
  | [] => .ok []
  | ⟨colour, some position⟩ :: stops => do return ⟨colour, position⟩ :: (← spread count order stops)
  | ⟨colour, none⟩ :: stops => do
    let position ← Scalar.divide (Scalar.ofNat order) (Scalar.ofNat (max 1 (count - 1)))
    return ⟨colour, position⟩ :: (← spread count (order + 1) stops)

/-- A position within the unit interval. A zero of either sign becomes the positive one. -/
def unitPosition (position : α) : α :=
  Scalar.clampUnit (if position == 0.0 then 0.0 else position)

/-- Sorted stops with the ends of the unit interval among them. -/
def padEnds (stops : List (Stop α)) : Except Fault (List (Stop α)) :=
  match stops.head?, stops.getLast? with
  | some first, some last =>
    let front : List (Stop α) := if 0.0 < first.position then [⟨first.colour, 0.0⟩] else []
    let back : List (Stop α) := if last.position < 1.0 then [⟨last.colour, 1.0⟩] else []
    .ok (front ++ stops ++ back)
  | _, _ => .error .emptyList

/-- The stops of a written gradient; the empty text is the gradient from black to white. -/
def readStops (s : List Char) : Except Fault (List (Stop α)) :=
  if s.isEmpty then
    .ok [⟨['#', '0', '0', '0', '0', '0', '0'], 0.0⟩, ⟨['#', 'F', 'F', 'F', 'F', 'F', 'F'], 1.0⟩]
  else do
    let parts := ((splitAt ',' s).map Text.trim).filter (!·.isEmpty)
    let stops : List (OpenStop α) := parts.map OpenStop.ofChars
    let count := (stops.filter (·.position.isNone)).length
    let placed := (← spread count 0 stops).map fun s => { s with position := unitPosition s.position }
    padEnds (placed.mergeSort fun a b => a.position ≤ b.position)

/-- The colour at `t` of the first pair of neighbouring stops around it, or else the last stop as it
is written. -/
def colourBetween (t : α) : List (Stop α) → Except Fault (List Char)
  | [] => .error .emptyList
  | [a] => .ok a.colour
  | a :: b :: stops =>
    if a.position ≤ t && t ≤ b.position then do
      let share ← Scalar.divide (t - a.position) (Scalar.larger 1e-6 (b.position - a.position))
      mixChars a.colour b.colour share
    else colourBetween t (b :: stops)

/-- The colour of a gradient at `t`, which is moved into the unit interval; what is not finite counts
as 0. -/
def colourAt (stops : List (Stop α)) (t : α) : Except Fault (List Char) :=
  colourBetween (Scalar.clampUnit (if Scalar.isFinite t then t else 0.0)) stops

end

end FieldPlot.Colour
