/-!
Counting at the head of a list in leaps that double, then by halving. Where the elements that satisfy a
test do not all come first, the places at which it is made settle the count.
-/

namespace FieldPlot.Sorting

/-- The first index from `lo` up to `hi` at which `holds` fails, by halving. Of two middle places
`early` takes the former. -/
def bisect (holds : Nat → Bool) (early : Bool) (lo hi : Nat) : Nat :=
  if lo < hi then
    let mid := lo + (hi - lo - early.toNat) / 2
    if holds mid then bisect holds early (mid + 1) hi else bisect holds early lo mid
  else lo
termination_by hi - lo

/-- The last of the places `next`, `2 * next + 1`, … up to which `holds` at each, and the place after
it, at most `size`. Before the first of them the last one is `last`. -/
def leap (holds : Nat → Bool) (size last next : Nat) : Nat × Nat :=
  if next < size then
    if holds next then leap holds size next (2 * next + 1) else (last, next)
  else (last, size)
termination_by size - next

variable {β : Type}

/-- How many elements at the head of `s` satisfy `p`. -/
def countHead (early : Bool) (p : β → Bool) (s : List β) : Nat :=
  let a := s.toArray
  let holds (i : Nat) : Bool := a[i]?.any p
  if holds 0 then
    let (last, next) := leap holds a.size 0 1
    bisect holds early (last + 1) next
  else 0

end FieldPlot.Sorting
