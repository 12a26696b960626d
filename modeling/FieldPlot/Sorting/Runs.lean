import FieldPlot.Sorting.Merging

/-!
Sorting by merging runs. The list is cut into runs, stretches that are in order or strictly in reverse
order already; short runs are filled up by insertion, and neighbouring runs are merged so that their
lengths stay balanced. For an order this is a stable sort, and where `less` is none, as on numbers with
NaN among them, the comparisons made here settle the outcome.
-/

namespace FieldPlot.Sorting

variable {β : Type} (less : β → β → Bool)

/-- The longest stretch at the head of `s` that goes on in order behind `a`, and the rest. -/
def ascending (a : β) : List β → List β × List β
  | [] => ([], [])
  | b :: s =>
    if less b a then ([], b :: s)
    else
      let (run, rest) := ascending b s
      (b :: run, rest)

/-- The longest stretch at the head of `s` that goes on in strictly reverse order behind `a`, and the
rest. -/
def descending (a : β) : List β → List β × List β
  | [] => ([], [])
  | b :: s =>
    if less b a then
      let (run, rest) := descending b s
      (b :: run, rest)
    else ([], b :: s)

/-- The run at the head of a list, put in order, and the rest. -/
def firstRun : List β → List β × List β
  | a :: b :: s =>
    if less b a then
      let (run, rest) := descending less b s
      ((a :: b :: run).reverse, rest)
    else
      let (run, rest) := ascending less b s
      (a :: b :: run, rest)
  | s => (s, [])

/-- `a` at its place in a run, behind its equals. -/
def insertInto (run : List β) (a : β) : List β :=
  let entries := run.toArray
  let place := bisect (fun i => !entries[i]?.any (less a)) false 0 entries.size
  run.take place ++ a :: run.drop place

/-- The length up to which runs are filled up: the six leading bits of `n`, rounded up. -/
def leastRun (n : Nat) (dropped : Bool) : Nat :=
  if 64 ≤ n then leastRun (n / 2) (dropped || n % 2 = 1) else n + dropped.toNat
termination_by n

/-- The runs of a list, each of at least `least` elements as far as they last. -/
def runs (least : Nat) : (fuel : Nat) → List β → List (List β)
  | 0, _ => []
  | fuel + 1, s =>
    match firstRun less s with
    | ([], _) => []
    | (run, rest) =>
      let missing := least - run.length
      (rest.take missing).foldl (insertInto less) run :: runs least fuel (rest.drop missing)

/-- A run with its place in the whole list. The level of the boundary behind it is the depth at which
repeated halving of the whole list separates the middles of the two runs. -/
structure Pending (β : Type) where
  run : List β
  start : Nat
  level : Nat

/-- The first binary digit in which `a / n` and `b / n` differ. -/
def boundaryLevel (n : Nat) : (fuel : Nat) → (a b : Nat) → Nat
  | 0, _, _ => 1
  | fuel + 1, a, b =>
    if n ≤ a then boundaryLevel n fuel (2 * (a - n)) (2 * (b - n)) + 1
    else if n ≤ b then 1
    else boundaryLevel n fuel (2 * a) (2 * b) + 1

/-- Runs that wait for being merged, the latest first, and the patience of the merges. -/
structure Queue (β : Type) where
  pending : List (Pending β)
  patience : Nat

namespace Queue

def join (s t : Pending β) (patience : Nat) : Pending β × Nat :=
  let (run, patience) := merge less patience s.run t.run
  ({ s with run }, patience)

/-- Merges the two latest runs as long as the boundary between them is deeper than `level`. -/
def settle (level : Nat) : (fuel : Nat) → Queue β → Queue β
  | 0, q => q
  | fuel + 1, q =>
    match q.pending with
    | t :: s :: others =>
      if level < s.level then
        let (joined, patience) := join less s t q.patience
        settle level fuel ⟨joined :: others, patience⟩
      else q
    | _ => q

/-- Puts a run behind the others of a list of length `n`. -/
def push (n : Nat) (q : Queue β) (run : List β) : Queue β :=
  match q.pending with
  | [] => { q with pending := [⟨run, 0, 0⟩] }
  | t :: _ =>
    let first := 2 * t.start + t.run.length
    let level := boundaryLevel n (n + 1) first (first + t.run.length + run.length)
    let q := settle less level q.pending.length q
    let marked := match q.pending with
      | s :: others => { s with level } :: others
      | [] => []
    { q with pending := ⟨run, t.start + t.run.length, 0⟩ :: marked }

/-- Merges everything, from the latest runs on; a run between two longer ones goes with the shorter
of them. -/
def collapse : (fuel : Nat) → Queue β → List β
  | 0, q => q.pending.flatMap (·.run)
  | fuel + 1, q =>
    match q.pending with
    | t :: s :: r :: others =>
      if r.run.length < t.run.length then
        let (joined, patience) := join less r s q.patience
        collapse fuel ⟨t :: joined :: others, patience⟩
      else
        let (joined, patience) := join less s t q.patience
        collapse fuel ⟨joined :: r :: others, patience⟩
    | [t, s] => (join less s t q.patience).1.run
    | [t] => t.run
    | [] => []

end Queue

/-- The elements of `s` from the least to the greatest, equal ones as they come. -/
def sort (s : List β) : List β :=
  let n := s.length
  let q := (runs less (leastRun n false) n s).foldl (Queue.push less n) ⟨[], Merging.longStretch⟩
  q.collapse less n

end FieldPlot.Sorting
