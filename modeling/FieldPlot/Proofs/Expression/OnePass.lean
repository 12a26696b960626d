import FieldPlot.Expression.Formula
import FieldPlot.Proofs.Expression.Readers

/-! Expressions worked out in one pass. A calculation gets its value while it takes the tokens, records the issues and
opens one call inside another. Beside the value, all of this is what the readers make of the tokens, so it is the same
at every point and in every arithmetic. -/

namespace FieldPlot.Expression

/-- What a calculation has come to, and how many of its calls were open at once. -/
structure Outcome (α : Type) where
  value : α
  issues : List Issue
  rest : List Token
  depth : ℕ
deriving DecidableEq

/-- A calculation has no outcome only where the nesting bound is exceeded. -/
abbrev Calculator (α : Type) := List Token → Option (Outcome α)

namespace Outcome

variable {α : Type}

/-- The outcome that `o` is for whoever called for it. -/
def returned (o : Outcome α) : Outcome α :=
  { o with depth := o.depth + 1 }

def close (issue : Issue) (o : Outcome α) : Outcome α :=
  if headMark? o.rest = some .closing then { o with rest := o.rest.drop 1 }
  else { o with issues := o.issues ++ [issue] }

def join [Arithmetic α] (op : Binary) (o o' : Outcome α) : Outcome α :=
  ⟨op.apply o.value o'.value, o.issues ++ o'.issues, o'.rest, max o.depth o'.depth⟩

/-- The value that the function of `name` has at `a` and `b`, in place of the last argument's. -/
def applied [Arithmetic α] (name : List Char) (start : ℕ) (a : α) (b : Option α) (o : Outcome α) : Outcome α :=
  match Function.ofName? (name.map Char.toLower) with
  | some f => { o with value := f.apply a b }
  | none => { o with value := Arithmetic.zero, issues := o.issues ++ [.unknownFunction name start] }

def finish (o : Outcome α) : Outcome α :=
  match o.rest with
  | [] => o
  | t :: _ => { o with issues := o.issues ++ [.unexpected t.text t.start] }

/-- All there is to an outcome but its value. -/
def trace (o : Outcome α) : List Issue × List Token × ℕ :=
  (o.issues, o.rest, o.depth)

end Outcome

section

variable {α : Type} [Arithmetic α]

def valueOfName? (p : Point α) (name : List Char) : Option α :=
  match name with
  | ['x'] => some p.x
  | ['y'] => some p.y
  | ['z'] => some p.z
  | ['p', 'i'] => some Arithmetic.pi
  | ['e'] => some Arithmetic.euler
  | _ => none

def calculateCall (inner : Calculator α) (name : List Char) (start : ℕ) : Calculator α := fun ts => do
  let first ← inner ts
  if headMark? first.rest = some .comma then
    let second ← inner (first.rest.drop 1)
    let both : Outcome α :=
      { second with issues := first.issues ++ second.issues, depth := max first.depth second.depth }
    return ((both.close (.unmatchedCall name start)).applied name start first.value (some second.value)).returned
  else
    return ((first.close (.unmatchedCall name start)).applied name start first.value none).returned

def calculateOperand (p : Point α) (inner : Calculator α) : Calculator α
  | [] => some ⟨Arithmetic.zero, [.missingAtEnd], [], 1⟩
  | ⟨.mark .opening, start⟩ :: ts => (inner ts).map fun o => (o.close (.unmatched start)).returned
  | ⟨.mark m, start⟩ :: ts => some ⟨Arithmetic.zero, [.missingBefore [m.char] start], ts, 1⟩
  | ⟨.number s, start⟩ :: ts =>
    match Numeral.ofChars? s with
    | some n => some ⟨Arithmetic.numeral n, [], ts, 1⟩
    | none => some ⟨Arithmetic.zero, [.malformedNumber s start], ts, 1⟩
  | ⟨.name s, start⟩ :: ts =>
    match valueOfName? p (s.map Char.toLower) with
    | some a => some ⟨a, [], ts, 1⟩
    | none =>
      if headMark? ts = some .opening then (calculateCall inner s start (ts.drop 1)).map Outcome.returned
      else some ⟨Arithmetic.zero, [.unknownName s start], ts, 1⟩

def calculateSigned (p : Point α) (inner : Calculator α) : Calculator α := fun ts =>
  match headMark? ts with
  | some .minus =>
    (calculateOperand p inner (ts.drop 1)).map fun o => { o with value := Arithmetic.neg o.value }.returned
  | some .plus => (calculateOperand p inner (ts.drop 1)).map Outcome.returned
  | _ => (calculateOperand p inner ts).map Outcome.returned

def calculatePower (p : Point α) (inner : Calculator α) : Calculator α := fun ts => do
  let base ← calculateSigned p inner ts
  if headMark? base.rest = some .power then
    return (base.join .pow (← calculateSigned p inner (base.rest.drop 1))).returned
  else
    return base.returned

def calculateChain (operand : Calculator α) (op? : Mark → Option Binary) :
    (fuel : ℕ) → Outcome α → Option (Outcome α)
  | 0, o => some o
  | fuel + 1, o =>
    match (headMark? o.rest).bind op? with
    | none => some o
    | some op => do calculateChain operand op? fuel (o.join op (← operand (o.rest.drop 1)))

def calculateOperands (operand : Calculator α) (op? : Mark → Option Binary) : Calculator α := fun ts => do
  let first ← operand ts
  (calculateChain operand op? first.rest.length first).map Outcome.returned

def calculateTerm (p : Point α) (inner : Calculator α) : Calculator α :=
  calculateOperands (calculatePower p inner) Binary.ofProductMark?

def calculateSum (p : Point α) : (levels : ℕ) → Calculator α
  | 0 => fun _ => none
  | levels + 1 => calculateOperands (calculateTerm p (calculateSum p levels)) Binary.ofSumMark?

/-- The value of a text at a point, worked out while the text is read. -/
def calculate (levels : ℕ) (s : List Char) (p : Point α) : Option (Outcome α) :=
  (calculateSum p levels (tokens s)).map fun o => o.finish.returned

/-- The outcome of a calculation that has taken what was read. -/
def Reading.outcome (p : Point α) (depth : ℕ) (r : Reading) : Outcome α :=
  ⟨(r.tree.map Arithmetic.numeral).eval p, r.issues, r.rest, depth⟩

end

/-! ### Comparing two calculations -/

section

variable {α β : Type} [Arithmetic α] [Arithmetic β] {p : Point α} {q : Point β}

/-- Two calculations have come to what was read, each at its own point and both equally deep, or nothing was read and
neither has come to anything. -/
inductive Agree (p : Point α) (q : Point β) : Option Reading → Option (Outcome α) → Option (Outcome β) → Prop
  | failed : Agree p q none none none
  | reached (r : Reading) (depth : ℕ) : Agree p q (some r) (some (r.outcome p depth)) (some (r.outcome q depth))

/-- Both calculators do what `read` does. -/
def Accompanied (p : Point α) (q : Point β) (read : Reader) (first : Calculator α) (second : Calculator β) : Prop :=
  ∀ ts, Agree p q (read ts) (first ts) (second ts)

section

variable {x x' : Option Reading} {y y' : Option (Outcome α)} {z z' : Option (Outcome β)}

theorem Agree.bind {f : Reading → Option Reading} {g : Outcome α → Option (Outcome α)}
    {h : Outcome β → Option (Outcome β)} (hx : Agree p q x y z)
    (hf : ∀ r depth, Agree p q (f r) (g (r.outcome p depth)) (h (r.outcome q depth))) :
    Agree p q (x.bind f) (y.bind g) (z.bind h) := by
  cases hx with
  | failed => exact .failed
  | reached r depth => exact hf r depth

theorem Agree.map {f : Reading → Reading} {g : Outcome α → Outcome α} {h : Outcome β → Outcome β}
    (hx : Agree p q x y z)
    (hf : ∀ r depth, Agree p q (some (f r)) (some (g (r.outcome p depth))) (some (h (r.outcome q depth)))) :
    Agree p q (x.map f) (y.map g) (z.map h) := by
  cases hx with
  | failed => exact .failed
  | reached r depth => exact hf r depth

theorem Agree.branch {c : Prop} [Decidable c] (hx : Agree p q x y z) (hx' : Agree p q x' y' z') :
    Agree p q (if c then x else x') (if c then y else y') (if c then z else z') := by
  by_cases hc : c
  · simpa only [if_pos hc] using hx
  · simpa only [if_neg hc] using hx'

theorem Agree.returned (hx : Agree p q x y z) : Agree p q x (y.map Outcome.returned) (z.map Outcome.returned) := by
  cases hx with
  | failed => exact .failed
  | reached r depth => exact .reached r (depth + 1)

end

theorem valueOfName?_eq (p : Point α) (name : List Char) :
    valueOfName? p name = (Tree.ofName? name).map fun a => (a.map Arithmetic.numeral).eval p := by
  fun_cases Tree.ofName? name with
  | case6 => simp_all [valueOfName?]
  | _ => rfl

theorem Reading.outcome_close (p : Point α) (depth : ℕ) (issue : Issue) (r : Reading) :
    (r.outcome p depth).close issue = (r.close issue).outcome p depth := by
  unfold Outcome.close Reading.close
  by_cases h : headMark? r.rest = some .closing
  · rw [if_pos h]
    exact if_pos h
  · rw [if_neg h]
    exact if_neg h

theorem Reading.outcome_applied (p : Point α) (depth : ℕ) (name : List Char) (start : ℕ) {a : α} {b : Option α}
    {tree : Function → Tree Numeral} (htree : ∀ f, ((tree f).map Arithmetic.numeral).eval p = f.apply a b)
    (r : Reading) : (r.outcome p depth).applied name start a b =
      (r.knownCall (Function.ofName? (name.map Char.toLower)) name start tree).outcome p depth := by
  unfold Outcome.applied Reading.knownCall
  cases Function.ofName? (name.map Char.toLower) with
  | none => rfl
  | some f => simp only [outcome, htree]

theorem Agree.applied {name : List Char} {start : ℕ} {a : α} {b : Option α} {a' : β} {b' : Option β}
    {tree : Function → Tree Numeral} (hp : ∀ f, ((tree f).map Arithmetic.numeral).eval p = f.apply a b)
    (hq : ∀ f, ((tree f).map Arithmetic.numeral).eval q = f.apply a' b') (r : Reading) (depth : ℕ) :
    Agree p q (some ((r.close (.unmatchedCall name start)).knownCall
        (Function.ofName? (name.map Char.toLower)) name start tree))
      (some (((r.outcome p depth).close (.unmatchedCall name start)).applied name start a b).returned)
      (some (((r.outcome q depth).close (.unmatchedCall name start)).applied name start a' b').returned) := by
  rw [Reading.outcome_close, Reading.outcome_close, Reading.outcome_applied _ _ _ _ hp,
    Reading.outcome_applied _ _ _ _ hq]
  exact .reached _ (depth + 1)

section

variable {inner operand : Reader} {first first' : Calculator α} {second second' : Calculator β}
  {op? : Mark → Option Binary}

theorem readCall_accompanied (hi : Accompanied p q inner first second) (name : List Char) (start : ℕ) :
    Accompanied p q (readCall inner name start) (calculateCall first name start) (calculateCall second name start) := by
  intro ts
  refine (hi ts).bind fun r depth => ?_
  refine .branch ?_ (.applied (fun _ => rfl) (fun _ => rfl) r depth)
  refine (hi _).bind fun r' depth' => ?_
  exact .applied (fun _ => rfl) (fun _ => rfl) { r' with issues := r.issues ++ r'.issues } (max depth depth')

theorem readOperand_accompanied (hi : Accompanied p q inner first second) :
    Accompanied p q (readOperand inner) (calculateOperand p first) (calculateOperand q second) := by
  intro ts
  match ts with
  | [] => exact .reached _ 1
  | ⟨.mark m, start⟩ :: ts =>
    by_cases hm : m = .opening
    · subst hm
      refine (hi ts).map fun r depth => ?_
      rw [Reading.outcome_close, Reading.outcome_close]
      exact .reached _ (depth + 1)
    · cases m with
      | opening => contradiction
      | _ => exact .reached _ 1
  | ⟨.number s, start⟩ :: ts =>
    simp only [readOperand, calculateOperand]
    cases Numeral.ofChars? s <;> exact .reached _ 1
  | ⟨.name s, start⟩ :: ts =>
    simp only [readOperand, calculateOperand, valueOfName?_eq]
    cases Tree.ofName? (s.map Char.toLower) with
    | some a => exact .reached ⟨a, [], ts⟩ 1
    | none =>
      by_cases hm : headMark? ts = some .opening
      · simp only [Option.map_none, if_pos hm]
        exact (readCall_accompanied hi s start _).returned
      · simp only [Option.map_none, if_neg hm]
        exact .reached _ 1

theorem readSigned_accompanied (hi : Accompanied p q inner first second) :
    Accompanied p q (readSigned inner) (calculateSigned p first) (calculateSigned q second) := by
  intro ts
  have ho := readOperand_accompanied hi
  simp only [readSigned, calculateSigned]
  rcases headMark? ts with _ | m
  · exact (ho _).returned
  · cases m with
    | minus =>
      refine (ho _).map fun r depth => ?_
      exact .reached { r with tree := .negate r.tree } (depth + 1)
    | _ => exact (ho _).returned

theorem readPower_accompanied (hi : Accompanied p q inner first second) :
    Accompanied p q (readPower inner) (calculatePower p first) (calculatePower q second) := by
  intro ts
  have hs := readSigned_accompanied hi
  refine (hs ts).bind fun base depth => ?_
  refine .branch ?_ (.reached base (depth + 1))
  exact (hs _).bind fun exponent depth' => .reached (base.join .pow exponent) (max depth depth' + 1)

theorem readChain_accompanied (ho : Accompanied p q operand first second) (fuel : ℕ) (r : Reading) (depth : ℕ) :
    Agree p q (readChain operand op? fuel r) (calculateChain first op? fuel (r.outcome p depth))
      (calculateChain second op? fuel (r.outcome q depth)) := by
  induction fuel generalizing r depth with
  | zero => exact .reached r depth
  | succ fuel ih =>
    simp only [readChain, calculateChain, Reading.outcome]
    cases (headMark? r.rest).bind op? with
    | none => exact .reached r depth
    | some op =>
      refine (ho _).bind fun s depth' => ?_
      exact ih (r.join op s) (max depth depth')

theorem readOperands_accompanied (ho : Accompanied p q operand first second) :
    Accompanied p q (readOperands operand op?) (calculateOperands first op?) (calculateOperands second op?) := by
  intro ts
  exact (ho ts).bind fun r depth => (readChain_accompanied ho _ r depth).returned

end

theorem readSum_accompanied (levels : ℕ) :
    Accompanied p q (readSum levels) (calculateSum p levels) (calculateSum q levels) := by
  induction levels with
  | zero => exact fun _ => .failed
  | succ levels ih => exact readOperands_accompanied (readOperands_accompanied (readPower_accompanied ih))

theorem Reading.outcome_finish (p : Point α) (depth : ℕ) (r : Reading) :
    (r.outcome p depth).finish = Reading.outcome p depth { r with issues := r.finish } := by
  unfold Outcome.finish Reading.finish
  cases hr : r.rest <;> simp only [outcome, hr]

theorem calculate_agree (levels : ℕ) (s : List Char) :
    Agree p q ((readSum levels (tokens s)).map fun r => { r with issues := r.finish })
      (calculate levels s p) (calculate levels s q) := by
  refine (readSum_accompanied levels (tokens s)).map fun r depth => ?_
  rw [Reading.outcome_finish, Reading.outcome_finish]
  exact .reached _ (depth + 1)

theorem Agree.trace_eq {x : Option Reading} {y : Option (Outcome α)} {z : Option (Outcome β)} (h : Agree p q x y z) :
    y.map Outcome.trace = z.map Outcome.trace := by
  cases h <;> rfl

theorem evaluate_eq_calculate (s : List Char) (p : Point α) :
    evaluate s p = (calculate nestingLimit s p).elim (.error .nestedTooDeep) fun o => .ok ⟨o.value, o.issues⟩ := by
  have h := calculate_agree (p := p) (q := p) nestingLimit s
  unfold evaluate Parsed.ofChars? Parsed.ofCharsWithin?
  generalize calculate nestingLimit s p = o at h
  cases hr : readSum nestingLimit (tokens s) with
  | none =>
    rw [hr, Option.map_none] at h
    cases h
    rfl
  | some r =>
    rw [hr, Option.map_some] at h
    cases h
    rfl

theorem check_eq (s : List Char) (p : Point α) :
    check s = if (Text.trim s).isEmpty then .ok [.empty] else (evaluate s p).map (·.issues) := by
  unfold check evaluate
  cases Parsed.ofChars? s <;> rfl

theorem evaluate_issues (s : List Char) (p : Point α) (q : Point β) :
    (evaluate s p).map (·.issues) = (evaluate s q).map (·.issues) := by
  unfold evaluate
  cases Parsed.ofChars? s <;> rfl

/-- A text that is worked out in one pass at two points, in two arithmetics, has the same issues, leaves the same
tokens and opens its calls equally deep, whatever nesting is allowed. Within the nesting limit the pass is the
evaluation, so that checking a text that is not blank gives the issues of its evaluation at every point. -/
theorem diagnostics_of_point (s : List Char) (p : Point α) (q : Point β) :
    (∀ levels, (calculate levels s p).map Outcome.trace = (calculate levels s q).map Outcome.trace) ∧
    evaluate s p = (calculate nestingLimit s p).elim (.error .nestedTooDeep) (fun o => .ok ⟨o.value, o.issues⟩) ∧
    (evaluate s p).map (·.issues) = (evaluate s q).map (·.issues) ∧
    check s = if (Text.trim s).isEmpty then .ok [.empty] else (evaluate s p).map (·.issues) :=
  ⟨fun levels => (calculate_agree levels s).trace_eq, evaluate_eq_calculate s p, evaluate_issues s p q, check_eq s p⟩

end

end FieldPlot.Expression
