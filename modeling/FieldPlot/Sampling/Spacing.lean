import FieldPlot.Scalar.Basic

/-!
Positions along an axis: counted steps, evenly spaced vertices, and spacings of grid lines, which are
1, 2 or 5 times a power of ten.
-/

namespace FieldPlot.Sampling

variable {α : Type} [Scalar α]

/-- The numbers `start`, `start + step`, … up to `stop`, with a slack of a billionth step at the end.
The steps are counted first, so rounding does not add up. -/
def steps (start stop step : α) : Except Fault (List α) :=
  if 0.0 < step && Scalar.isFinite start && Scalar.isFinite stop then do
    let count ← Scalar.floor? ((← Scalar.divide (stop - start) step) + 1e-9)
    return (List.range (count + 1).toNat).map fun k => start + Scalar.ofNat k * step
  else .ok []

/-- The number `k` of `n` evenly spaced ones from `start` to `stop`. -/
def evenlyAt (start stop : α) (n k : Nat) : Except Fault α :=
  let span := stop - start
  let gaps : α := Scalar.ofNat (n - 1)
  if n = 1 then .ok (Scalar.ofNat k * span + start)
  else if k + 1 = n then .ok stop
  else do
    let step ← Scalar.divide span gaps
    if step == 0.0 then return (← Scalar.divide (Scalar.ofNat k) gaps) * span + start
    else return Scalar.ofNat k * step + start

/-- `count` evenly spaced numbers from `start` to `stop`. -/
def evenly (start stop : α) (count : Int) : Except Fault (List α) :=
  if count < 0 then .error .negativeCount
  else do
    let _ : α ← Scalar.ofInt? count
    let n ← Scalar.listLength α count
    if n = 0 && 0 < count then throw .emptyList
    (List.range n).mapM (evenlyAt start stop n)

/-- The vertices of `cells` equal cells between `-extent` and `extent`. -/
def vertices (extent : α) (cells : Int) : Except Fault (List α) :=
  evenly (-extent) extent (cells + 1)

/-- The spacing that draws at most `lines` intervals on `span`: the next of 1, 2, 5 and 10 times a
power of ten. -/
def gridSpacing (span : α) (lines : Int) : Except Fault α :=
  if 0.0 < span && Scalar.isFinite span then do
    let rough ← Scalar.divide span (← Scalar.ofInt? lines)
    let unit ← Scalar.decade rough
    let leading ← Scalar.divide rough unit
    let nice :=
      if leading ≤ 1.0 then 1.0 else if leading ≤ 2.0 then 2.0 else if leading ≤ 5.0 then 5.0 else 10.0
    return nice * unit
  else .ok 1.0

/-- The spacing of the floor grid and the axis ticks for an axis of that half length. -/
def floorSpacing (extent : α) : Except Fault α :=
  let span := 2.0 * extent
  if 0.0 < span && Scalar.isFinite span then do
    let unit ← Scalar.decade span
    let leading ← Scalar.divide span unit
    return if leading < 2.0 then unit / 5.0 else if leading < 5.0 then unit / 2.0 else unit
  else .ok 1.0

end FieldPlot.Sampling
