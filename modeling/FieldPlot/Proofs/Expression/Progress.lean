import FieldPlot.Proofs.Expression.Readers
import Mathlib.Data.Nat.Basic
import Mathlib.Order.Nat

/-! Readers only go forward, and nothing but opening brackets uses up their levels. So a reader has a
result wherever fewer brackets are opened than it has levels. -/

namespace FieldPlot.Expression

/-- What `read` leaves is the end of what it was given. -/
def Forward (read : Reader) : Prop :=
  ∀ ts r, read ts = some r → r.rest <:+ ts

theorem Reading.close_suffix (issue : Issue) (r : Reading) : (r.close issue).rest <:+ r.rest := by
  by_cases h : headMark? r.rest = some .closing
  · obtain ⟨n, us, hr⟩ := headMark?_eq_some.mp h
    rw [Reading.close_closing issue hr, hr]
    exact List.suffix_cons _ _
  · have hrest : (r.close issue).rest = r.rest := by
      rw [Reading.close_missing issue h]
    exact hrest ▸ List.suffix_rfl

theorem Reading.knownCall_rest (f : Option Function) (name : List Char) (start : Nat)
    (tree : Function → Tree Numeral) (r : Reading) :
    (r.knownCall f name start tree).rest = r.rest := by
  cases f <;> rfl

section

variable {inner operand : Reader} {op? : Mark → Option Binary}

theorem readCall_forward (hi : Forward inner) (name : List Char) (start : Nat) :
    Forward (readCall inner name start) := by
  intro ts r h
  cases hf : inner ts with
  | none => simp [readCall_none hf] at h
  | some first =>
    have hfirst := hi ts first hf
    by_cases hc : headMark? first.rest = some .comma
    · obtain ⟨n, us, hr⟩ := headMark?_eq_some.mp hc
      rw [readCall_two hf hr] at h
      obtain ⟨second, hg, rfl⟩ := Option.map_eq_some_iff.mp h
      rw [Reading.knownCall_rest]
      rw [hr] at hfirst
      exact (Reading.close_suffix _ _).trans
        ((hi us second hg).trans ((List.suffix_cons _ _).trans hfirst))
    · rw [readCall_one hf hc] at h
      obtain rfl := Option.some.inj h
      rw [Reading.knownCall_rest]
      exact (Reading.close_suffix _ _).trans hfirst

theorem readOperand_forward (hi : Forward inner) : Forward (readOperand inner) := by
  intro ts r h
  cases readOperand_cases h with
  | skipped hrest => exact hrest
  | group hf => exact (Reading.close_suffix _ _).trans ((hi _ _ hf).trans (List.suffix_cons _ _))
  | number | name => exact List.suffix_cons _ _
  | call hc =>
    exact (readCall_forward hi _ _ _ _ hc).trans
      ((List.suffix_cons _ _).trans (List.suffix_cons _ _))

theorem readSigned_forward (hi : Forward inner) : Forward (readSigned inner) := by
  intro ts r h
  by_cases hm : headMark? ts = some .minus
  · obtain ⟨n, ts, rfl⟩ := headMark?_eq_some.mp hm
    rw [readSigned_minus] at h
    obtain ⟨r, hr, rfl⟩ := Option.map_eq_some_iff.mp h
    exact (readOperand_forward hi ts r hr).trans (List.suffix_cons _ _)
  · by_cases hp : headMark? ts = some .plus
    · obtain ⟨n, ts, rfl⟩ := headMark?_eq_some.mp hp
      exact (readOperand_forward hi ts r h).trans (List.suffix_cons _ _)
    · rw [readSigned_unsigned hm hp] at h
      exact readOperand_forward hi ts r h

theorem readPower_forward (hi : Forward inner) : Forward (readPower inner) := by
  intro ts r h
  cases hb : readSigned inner ts with
  | none => simp [readPower_none hb] at h
  | some base =>
    have hbase := readSigned_forward hi ts base hb
    by_cases hm : headMark? base.rest = some .power
    · obtain ⟨n, us, hr⟩ := headMark?_eq_some.mp hm
      rw [readPower_raised hb hr] at h
      obtain ⟨exponent, hx, rfl⟩ := Option.map_eq_some_iff.mp h
      rw [hr] at hbase
      exact (readSigned_forward hi us exponent hx).trans ((List.suffix_cons _ _).trans hbase)
    · rw [readPower_base hb hm] at h
      obtain rfl := Option.some.inj h
      exact hbase

theorem readChain_forward (ho : Forward operand) {fuel : Nat} {r r' : Reading}
    (h : readChain operand op? fuel r = some r') : r'.rest <:+ r.rest := by
  induction fuel generalizing r with
  | zero =>
    obtain rfl := Option.some.inj h
    exact List.suffix_rfl
  | succ fuel ih =>
    cases hop : (headMark? r.rest).bind op? with
    | none =>
      rw [readChain_end _ hop] at h
      obtain rfl := Option.some.inj h
      exact List.suffix_rfl
    | some op =>
      obtain ⟨m, hm, hop⟩ := Option.bind_eq_some_iff.mp hop
      obtain ⟨n, us, hr⟩ := headMark?_eq_some.mp hm
      rw [readChain_step hr hop] at h
      obtain ⟨s, hs, hrest⟩ := Option.bind_eq_some_iff.mp h
      rw [hr]
      exact (ih hrest).trans ((ho us s hs).trans (List.suffix_cons _ _))

theorem readOperands_forward (ho : Forward operand) : Forward (readOperands operand op?) := by
  intro ts r h
  cases hf : operand ts with
  | none => simp [readOperands_none hf] at h
  | some first =>
    rw [readOperands_some hf] at h
    exact (readChain_forward ho h).trans (ho ts first hf)

end

theorem readSum_forward (levels : Nat) : Forward (readSum levels) := by
  induction levels with
  | zero =>
    intro ts r h
    simp [readSum] at h
  | succ levels ih =>
    exact readOperands_forward (readOperands_forward (readPower_forward ih))

def openings (ts : List Token) : Nat :=
  ts.countP fun t => t.lexeme = .mark .opening

theorem openings_le {ts us : List Token} (h : ts <:+ us) : openings ts ≤ openings us :=
  h.sublist.countP_le

/-- `read` has a result for tokens with at most `n` opening brackets. -/
def Answers (n : Nat) (read : Reader) : Prop :=
  ∀ ts, openings ts ≤ n → ∃ r, read ts = some r

section

variable {inner operand : Reader} {op? : Mark → Option Binary} {n : Nat}

theorem readCall_answers (hf : Forward inner) (hi : Answers n inner) (name : List Char)
    (start : Nat) : Answers n (readCall inner name start) := by
  intro ts hts
  obtain ⟨first, h⟩ := hi ts hts
  by_cases hc : headMark? first.rest = some .comma
  · obtain ⟨i, us, hr⟩ := headMark?_eq_some.mp hc
    have hus : us <:+ ts := (List.suffix_cons _ _).trans (hr ▸ hf ts first h)
    obtain ⟨second, hs⟩ := hi us ((openings_le hus).trans hts)
    rw [readCall_two h hr, hs]
    exact ⟨_, rfl⟩
  · rw [readCall_one h hc]
    exact ⟨_, rfl⟩

theorem openings_opening (i : Nat) (ts : List Token) :
    openings (⟨.mark .opening, i⟩ :: ts) = openings ts + 1 := by
  simp [openings]

theorem readOperand_answers (hf : Forward inner) (hi : ∀ m < n, Answers m inner) :
    Answers n (readOperand inner) := by
  intro ts hts
  match ts with
  | [] => exact ⟨_, rfl⟩
  | ⟨.mark m, start⟩ :: ts =>
    by_cases hm : m = .opening
    · subst hm
      rw [openings_opening] at hts
      obtain ⟨first, h⟩ := hi _ (Nat.lt_of_succ_le hts) ts le_rfl
      exact ⟨first.close (.unmatched start), congrArg (Option.map _) h⟩
    · exact ⟨_, readOperand_mark hm⟩
  | ⟨.number s, start⟩ :: ts =>
    simp only [readOperand]
    split <;> exact ⟨_, rfl⟩
  | ⟨.name s, start⟩ :: ts =>
    simp only [readOperand]
    split
    · exact ⟨_, rfl⟩
    · by_cases hm : headMark? ts = some .opening
      · obtain ⟨i, us, rfl⟩ := headMark?_eq_some.mp hm
        have hus : openings us + 1 ≤ n := by
          rw [← openings_opening i]
          exact (openings_le (List.suffix_cons _ _)).trans hts
        rw [if_pos hm]
        exact readCall_answers hf (hi _ (Nat.lt_of_succ_le hus)) s start us le_rfl
      · rw [if_neg hm]
        exact ⟨_, rfl⟩

theorem readSigned_answers (hf : Forward inner) (hi : ∀ m < n, Answers m inner) :
    Answers n (readSigned inner) := by
  intro ts hts
  have ho := readOperand_answers hf hi
  have hd := (openings_le (List.drop_suffix 1 ts)).trans hts
  rw [readSigned]
  split
  · obtain ⟨r, hr⟩ := ho _ hd
    exact ⟨_, congrArg (Option.map _) hr⟩
  · exact ho _ hd
  · exact ho ts hts

theorem readPower_answers (hf : Forward inner) (hi : ∀ m < n, Answers m inner) :
    Answers n (readPower inner) := by
  intro ts hts
  have hs := readSigned_answers hf hi
  obtain ⟨base, hb⟩ := hs ts hts
  by_cases hm : headMark? base.rest = some .power
  · obtain ⟨i, us, hr⟩ := headMark?_eq_some.mp hm
    have hus : us <:+ ts := (List.suffix_cons _ _).trans (hr ▸ readSigned_forward hf ts base hb)
    obtain ⟨exponent, hx⟩ := hs us ((openings_le hus).trans hts)
    rw [readPower_raised hb hr, hx]
    exact ⟨_, rfl⟩
  · exact ⟨base, readPower_base hb hm⟩

theorem readChain_answers (hf : Forward operand) (ho : Answers n operand) (fuel : Nat) :
    ∀ r : Reading, openings r.rest ≤ n → ∃ r', readChain operand op? fuel r = some r' := by
  induction fuel with
  | zero => exact fun r _ => ⟨r, rfl⟩
  | succ fuel ih =>
    intro r hr
    cases hop : (headMark? r.rest).bind op? with
    | none => exact ⟨r, readChain_end _ hop⟩
    | some op =>
      obtain ⟨m, hm, hop⟩ := Option.bind_eq_some_iff.mp hop
      obtain ⟨i, us, hrest⟩ := headMark?_eq_some.mp hm
      rw [hrest] at hr
      have hus := (openings_le (List.suffix_cons _ _)).trans hr
      obtain ⟨s, hs⟩ := ho us hus
      rw [readChain_step hrest hop, hs]
      exact ih (r.join op s) ((openings_le (hf us s hs)).trans hus)

theorem readOperands_answers (hf : Forward operand) (ho : Answers n operand) :
    Answers n (readOperands operand op?) := by
  intro ts hts
  obtain ⟨first, h⟩ := ho ts hts
  rw [readOperands_some h]
  exact readChain_answers hf ho _ first ((openings_le (hf ts first h)).trans hts)

end

theorem readSum_answers (levels : Nat) : ∀ n < levels, Answers n (readSum levels) := by
  induction levels with
  | zero => exact fun n hn => absurd hn (Nat.not_lt_zero n)
  | succ levels ih =>
    intro n hn
    have hf := readSum_forward levels
    have hi : ∀ m < n, Answers m (readSum levels) :=
      fun m hm => ih m (lt_of_lt_of_le hm (Nat.le_of_lt_succ hn))
    exact readOperands_answers (readOperands_forward (readPower_forward hf))
      (readOperands_answers (readPower_forward hf) (readPower_answers hf hi))

end FieldPlot.Expression
