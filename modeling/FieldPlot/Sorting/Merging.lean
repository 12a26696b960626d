import FieldPlot.Sorting.Leap

/-!
Merging two sorted lists with few comparisons. As long as neither list wins several times in a row,
one pair of heads is compared at a time; then whole stretches are moved in leaps, until they get short
again. How many wins it takes is learnt from one merge to the next.
-/

namespace FieldPlot.Sorting

/-- Two lists on their way into one. The longer one may be used up before the shorter one, so a merge
also ends where the shorter list is down to its last element. -/
structure Merging (β : Type) where
  left : List β
  right : List β
  /-- What has been moved, the latest element first. -/
  moved : List β
  /-- The wins in a row that start leaping. -/
  patience : Nat

/-- The end at which two lists are merged: the head if the left one is shorter, else the last elements,
with both lists reversed. -/
inductive End
  | front | back
deriving DecidableEq

/-- One pair of heads at a time, with the wins in a row so far, or leaping. -/
inductive Pace
  | walking (leftWins rightWins : Nat)
  | leaping

namespace Merging

variable {β : Type}

def moveLeft (k : Nat) (m : Merging β) : Merging β :=
  { m with left := m.left.drop k, moved := (m.left.take k).reverse ++ m.moved }

def moveRight (k : Nat) (m : Merging β) : Merging β :=
  { m with right := m.right.drop k, moved := (m.right.take k).reverse ++ m.moved }

def isOver (side : End) (m : Merging β) : Bool :=
  m.left.isEmpty || m.right.isEmpty ||
    (match side with | .front => m.left.tail.isEmpty | .back => m.right.tail.isEmpty)

/-- Stretches of this length keep a merge leaping. -/
def longStretch : Nat := 7

/-- `next` of a merge that is not over yet. -/
def andThen (side : End) (next : Merging β → Merging β) (m : Merging β) : Merging β :=
  if m.isOver side then m else next m

/-- Merges up to the end; `fuel` bounds the rounds, each of which moves an element. `rightFirst a b`
tells whether the head `b` of the right list goes before the head `a` of the left one. -/
def run (side : End) (rightFirst : β → β → Bool) : (fuel : Nat) → Pace → Merging β → Merging β
  | 0, _, m => m
  | fuel + 1, pace, m =>
    match pace, m.left, m.right with
    | .walking leftWins rightWins, a :: _, b :: _ =>
      if rightFirst a b then
        (m.moveRight 1).andThen side fun m =>
          if m.patience ≤ rightWins + 1 then run side rightFirst fuel .leaping m
          else run side rightFirst fuel (.walking 0 (rightWins + 1)) m
      else
        (m.moveLeft 1).andThen side fun m =>
          if m.patience ≤ leftWins + 1 then run side rightFirst fuel .leaping m
          else run side rightFirst fuel (.walking (leftWins + 1) 0) m
    | .leaping, _, b :: _ =>
      let early : Bool := side = .back
      let leftCount := countHead early (fun a => !rightFirst a b) m.left
      (m.moveLeft leftCount).andThen side fun m => (m.moveRight 1).andThen side fun m =>
        match m.left with
        | [] => m
        | a :: _ =>
          let rightCount := countHead early (rightFirst a) m.right
          (m.moveRight rightCount).andThen side fun m => (m.moveLeft 1).andThen side fun m =>
            if longStretch ≤ leftCount || longStretch ≤ rightCount then
              run side rightFirst fuel .leaping { m with patience := max 1 (m.patience - 1) }
            else
              run side rightFirst fuel (.walking 0 0) { m with patience := m.patience + 1 }
    | _, _, _ => m

end Merging

variable {β : Type} (less : β → β → Bool)

/-- Merges at the front; the head of `t` is known to go first. -/
def mergeFront (patience : Nat) (s t : List β) : List β × Nat :=
  let start : Merging β := { left := s, right := t, moved := [], patience }
  let m := (start.moveRight 1).andThen .front
    (Merging.run .front (fun a b => less b a) (s.length + t.length) (.walking 0 0))
  (m.moved.reverse ++ m.right ++ m.left, m.patience)

/-- Merges at the back; the last element of `s` is known to go last. -/
def mergeBack (patience : Nat) (s t : List β) : List β × Nat :=
  let start : Merging β := { left := s.reverse, right := t.reverse, moved := [], patience }
  let m := (start.moveLeft 1).andThen .back
    (Merging.run .back (fun a b => !less b a) (s.length + t.length) (.walking 0 0))
  ((m.moved.reverse ++ m.left ++ m.right).reverse, m.patience)

/-- Merges two sorted lists. What the first one has before the second and what the second one has
behind the first stays where it is. -/
def merge (patience : Nat) (s t : List β) : List β × Nat :=
  match t with
  | [] => (s, patience)
  | b :: _ =>
    let before := countHead false (fun a => !less b a) s
    match (s.drop before).getLast? with
    | none => (s ++ t, patience)
    | some a =>
      let behind := countHead true (fun b => !less b a) t.reverse
      let inner := t.take (t.length - behind)
      let (merged, patience) :=
        if inner.isEmpty then (s.drop before, patience)
        else if (s.drop before).length ≤ inner.length then mergeFront less patience (s.drop before) inner
        else mergeBack less patience (s.drop before) inner
      (s.take before ++ merged ++ t.drop (t.length - behind), patience)

end FieldPlot.Sorting
