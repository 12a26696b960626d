import FieldPlot.Expression.Reader
import Mathlib.Tactic.Common

/-! What each reader does with the mark it stands at. These equations are all that the comparison
with the grammar needs of the readers. -/

namespace FieldPlot.Expression

@[simp]
theorem headMark?_mark (m : Mark) (n : Nat) (ts : List Token) :
    headMark? (⟨.mark m, n⟩ :: ts) = some m := rfl

theorem headMark?_eq_some {ts : List Token} {m : Mark} :
    headMark? ts = some m ↔ ∃ n us, ts = ⟨.mark m, n⟩ :: us := by
  constructor
  · intro h
    match ts with
    | ⟨.mark m', n⟩ :: us =>
      obtain rfl := Option.some.inj h
      exact ⟨n, us, rfl⟩
  · rintro ⟨n, us, rfl⟩
    rfl

theorem Reading.close_closing (issue : Issue) {r : Reading} {n : Nat} {us : List Token}
    (hr : r.rest = ⟨.mark .closing, n⟩ :: us) : r.close issue = { r with rest := us } := by
  rw [Reading.close, hr, headMark?_mark, if_pos rfl, List.drop_one, List.tail_cons]

theorem Reading.close_missing (issue : Issue) {r : Reading}
    (hr : headMark? r.rest ≠ some .closing) :
    r.close issue = { r with issues := r.issues ++ [issue] } :=
  if_neg hr

theorem Reading.close_tree (issue : Issue) (r : Reading) : (r.close issue).tree = r.tree := by
  unfold close
  split <;> rfl

variable {inner operand : Reader} {op? : Mark → Option Binary} {name : List Char} {start n fuel : Nat}
  {m : Mark} {ts us : List Token} {r first base : Reading}

theorem readCall_none (h : inner ts = none) : readCall inner name start ts = none := by
  simp [readCall, h]

theorem readCall_one (h : inner ts = some first) (hc : headMark? first.rest ≠ some .comma) :
    readCall inner name start ts =
      some ((first.close (.unmatchedCall name start)).knownCall
        (Function.ofName? (name.map Char.toLower)) name start fun f => .call f first.tree) := by
  simp [readCall, h, hc]

theorem readCall_two (h : inner ts = some first) (hr : first.rest = ⟨.mark .comma, n⟩ :: us) :
    readCall inner name start ts = (inner us).map fun second =>
      (Reading.close (.unmatchedCall name start)
        { second with issues := first.issues ++ second.issues }).knownCall
        (Function.ofName? (name.map Char.toLower)) name start
          fun f => .callTwo f first.tree second.tree := by
  cases hs : inner us <;> simp [readCall, h, hr, hs]

theorem readOperand_mark (hm : m ≠ .opening) : readOperand inner (⟨.mark m, n⟩ :: ts) =
    some ⟨.zero, [.missingBefore [m.char] n], ts⟩ := by
  cases m <;> first | rfl | contradiction

/-- The ways in which an operand is read. -/
inductive OperandRead (inner : Reader) : List Token → Reading → Prop
  | skipped {ts us : List Token} {issue : Issue} (hrest : us <:+ ts) :
    OperandRead inner ts ⟨.zero, [issue], us⟩
  | group {n : Nat} {us : List Token} {first : Reading} (h : inner us = some first) :
    OperandRead inner (⟨.mark .opening, n⟩ :: us) (first.close (.unmatched n))
  | number {s : List Char} {n : Nat} {us : List Token} {v : Numeral}
    (h : Numeral.ofChars? s = some v) :
    OperandRead inner (⟨.number s, n⟩ :: us) ⟨.literal v, [], us⟩
  | name {s : List Char} {n : Nat} {us : List Token} {a : Tree Numeral}
    (h : Tree.ofName? (s.map Char.toLower) = some a) :
    OperandRead inner (⟨.name s, n⟩ :: us) ⟨a, [], us⟩
  | call {s : List Char} {start n : Nat} {us : List Token} {r : Reading}
    (h : readCall inner s start us = some r) :
    OperandRead inner (⟨.name s, start⟩ :: ⟨.mark .opening, n⟩ :: us) r

theorem readOperand_cases (h : readOperand inner ts = some r) : OperandRead inner ts r := by
  match ts with
  | [] =>
    obtain rfl := Option.some.inj h
    exact .skipped List.suffix_rfl
  | ⟨.mark m, n⟩ :: us =>
    by_cases hm : m = .opening
    · subst hm
      obtain ⟨first, hf, rfl⟩ := Option.map_eq_some_iff.mp h
      exact .group hf
    · rw [readOperand_mark hm] at h
      obtain rfl := Option.some.inj h
      exact .skipped (List.suffix_cons _ _)
  | ⟨.number s, n⟩ :: us =>
    simp only [readOperand] at h
    cases hv : Numeral.ofChars? s with
    | none =>
      rw [hv] at h
      obtain rfl := Option.some.inj h
      exact .skipped (List.suffix_cons _ _)
    | some v =>
      rw [hv] at h
      obtain rfl := Option.some.inj h
      exact .number hv
  | ⟨.name s, start⟩ :: us =>
    simp only [readOperand] at h
    cases ha : Tree.ofName? (s.map Char.toLower) with
    | some a =>
      rw [ha] at h
      obtain rfl := Option.some.inj h
      exact .name ha
    | none =>
      simp only [ha] at h
      by_cases hm : headMark? us = some .opening
      · obtain ⟨n, us, rfl⟩ := headMark?_eq_some.mp hm
        rw [if_pos hm, List.drop_one, List.tail_cons] at h
        exact .call h
      · rw [if_neg hm] at h
        obtain rfl := Option.some.inj h
        exact .skipped (List.suffix_cons _ _)

theorem readSigned_minus : readSigned inner (⟨.mark .minus, n⟩ :: ts) =
    (readOperand inner ts).map fun r => { r with tree := .negate r.tree } := rfl

theorem readSigned_plus : readSigned inner (⟨.mark .plus, n⟩ :: ts) = readOperand inner ts := rfl

theorem readSigned_unsigned (hm : headMark? ts ≠ some .minus) (hp : headMark? ts ≠ some .plus) :
    readSigned inner ts = readOperand inner ts := by
  rw [readSigned]
  split
  · contradiction
  · contradiction
  · rfl

theorem readPower_none (h : readSigned inner ts = none) : readPower inner ts = none := by
  simp [readPower, h]

theorem readPower_base (h : readSigned inner ts = some base)
    (hm : headMark? base.rest ≠ some .power) : readPower inner ts = some base := by
  simp [readPower, h, hm]

theorem readPower_raised (h : readSigned inner ts = some base)
    (hr : base.rest = ⟨.mark .power, n⟩ :: us) :
    readPower inner ts = (readSigned inner us).map (base.join .pow) := by
  cases hs : readSigned inner us <;> simp [readPower, h, hr, hs]

theorem readChain_end (fuel : Nat) (h : (headMark? r.rest).bind op? = none) :
    readChain operand op? fuel r = some r := by
  cases fuel with
  | zero => rfl
  | succ fuel => simp only [readChain, h]

theorem readChain_step {op : Binary} (hr : r.rest = ⟨.mark m, n⟩ :: us) (hop : op? m = some op) :
    readChain operand op? (fuel + 1) r =
      (operand us).bind fun s => readChain operand op? fuel (r.join op s) := by
  simp [readChain, hr, hop]

theorem readOperands_none (h : operand ts = none) : readOperands operand op? ts = none := by
  simp [readOperands, h]

theorem readOperands_some (h : operand ts = some first) :
    readOperands operand op? ts = readChain operand op? first.rest.length first := by
  simp [readOperands, h]

end FieldPlot.Expression
