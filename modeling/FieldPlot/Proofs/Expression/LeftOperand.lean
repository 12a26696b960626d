import FieldPlot.Proofs.Expression.Rules

/-! What stands in front of an operator. The left operand of an operator is a phrase of its own; where a sum goes on
behind it, the operator takes the last part of the sum that is such a phrase. A power sign may also find nothing that
it can raise, and then the sum ends in front of it. -/

namespace FieldPlot.Expression

namespace Binary

def mark : Binary → Mark
  | add => .plus
  | sub => .minus
  | mul => .times
  | div => .divide
  | pow => .power

/-- What an operator takes for its left operand without brackets. -/
def left : Binary → Phrase
  | add | sub => .sum
  | mul | div => .term
  | pow => .signed

variable {op : Binary} {m : Mark}

theorem ofSumMark?_mark (h : op.left = .sum) : ofSumMark? op.mark = some op := by
  cases op <;> first | rfl | cases h

theorem ofProductMark?_mark (h : op.left = .term) : ofProductMark? op.mark = some op := by
  cases op <;> first | rfl | cases h

theorem left_of_sum (h : ofSumMark? m = some op) : op.left = .sum := by
  cases m <;> cases h <;> rfl

end Binary

section

variable {w v x : List Lexeme} {a b : Tree Numeral} {op : Binary}

theorem Closed.joinOp {d d' : Nat} {w v : List Lexeme} (h : Closed d w) (h' : Closed d' v) (op : Binary) :
    Closed (max d d') (w ++ .mark op.mark :: v) :=
  h.join h' (by cases op <;> decide) (by cases op <;> decide)

theorem derives_zero : Derives .operand [.number ['0']] .zero :=
  .number (fun _ hc => List.mem_singleton.mp hc ▸ rfl) ⟨'0', List.mem_singleton_self '0', rfl⟩ (by decide)

theorem Derives.of_left (h : Derives op.left w a) : Derives .sum w a := by
  cases op with
  | add | sub => exact h
  | mul | div => exact .summand h
  | pow => exact .summand (.factor (.base h))

theorem Derives.left_of_operand (op : Binary) (h : Derives .operand w a) : Derives op.left w a := by
  cases op with
  | add | sub => exact .summand (.factor (.base (.unsigned h)))
  | mul | div => exact .factor (.base (.unsigned h))
  | pow => exact .unsigned h

theorem Derives.apply (h : Derives op.left w a) (h' : Derives .operand v b) :
    Derives .sum (w ++ .mark op.mark :: v) (.binary op a b) := by
  cases op with
  | add | sub => exact .sum rfl h (.factor (.base (.unsigned h')))
  | mul | div => exact .summand (.product rfl h (.base (.unsigned h')))
  | pow => exact .summand (.factor (.raised h (.unsigned h')))

/-- A factor behind a sum of several terms belongs to the last of them. -/
theorem Derives.multiplied (hop : op.left = .term) (h : Derives .sum w a) (h' : Derives .power v b)
    (hw : ¬∃ t, Derives .term w t) :
    ∃ root s t, root.left = .sum ∧ Derives .sum (w ++ .mark op.mark :: v) (.binary root s t) := by
  cases h with
  | summand h => exact absurd ⟨_, h⟩ hw
  | @sum _ _ s t _ root hroot h h'' =>
    refine ⟨root, s, .binary op t b, Binary.left_of_sum hroot, ?_⟩
    rw [List.append_assoc]
    exact .sum hroot h (.product (Binary.ofProductMark?_mark hop) h'' h')

/-- A sum goes on behind every operator but the power, and is no power then. -/
theorem Derives.extended (hop : op ≠ .pow) (h : Derives .sum w a) (h' : Derives .power v b) :
    ∃ root s t, root ≠ .pow ∧ Derives .sum (w ++ .mark op.mark :: v) (.binary root s t) := by
  cases hleft : op.left with
  | sum => exact ⟨op, _, _, hop, .sum (Binary.ofSumMark?_mark hleft) h (.factor h')⟩
  | term =>
    by_cases hw : ∃ t, Derives .term w t
    · obtain ⟨t, ht⟩ := hw
      exact ⟨op, _, _, hop, .summand (.product (Binary.ofProductMark?_mark hleft) ht h')⟩
    · obtain ⟨root, s, t, hroot, hd⟩ := h.multiplied hleft h' hw
      refine ⟨root, s, t, ?_, hd⟩
      rintro rfl
      cases hroot
  | power | signed | operand => cases op <;> first | exact absurd rfl hop | cases hleft

end

/-! ### In front of a power sign -/

/-- Within `n` levels `w` is taken as a whole in front of a power sign. -/
def Firm (n : Nat) (k : Phrase) (w : List Lexeme) (a : Tree Numeral) : Prop :=
  ∀ ts i rest, ts.map Token.lexeme = w →
    Takes n k (ts ++ ⟨.mark .power, i⟩ :: rest) ⟨a, [], ⟨.mark .power, i⟩ :: rest⟩

namespace Firm

variable {n : Nat} {w v : List Lexeme} {a b : Tree Numeral} {m : Mark} {op : Binary}

theorem raised (h : Derives .signed w a) (hw : nesting w ≤ n) (h' : Derives .signed v b) (hv : nesting v ≤ n) :
    Firm n .power (w ++ .mark .power :: v) (.binary .pow a b) := by
  intro ts i rest hts
  obtain ⟨us, vs, rfl, hus, hvs⟩ := List.map_eq_append_iff.mp hts
  obtain ⟨⟨_, j⟩, vs, rfl, rfl, hvs'⟩ := List.map_eq_cons_iff.mp hvs
  rw [List.append_assoc]
  exact .raised (h.takes hus hw fun _ _ => rfl) rfl (h'.takes hvs' hv fun _ _ => rfl)

theorem factor (h : Firm n .power w a) : Firm n .term w a :=
  fun ts i rest hts => .factor (h ts i rest hts)

theorem product (hop : Binary.ofProductMark? m = some op) (h : Derives .term w a) (hw : nesting w ≤ n)
    (h' : Firm n .power v b) : Firm n .term (w ++ .mark m :: v) (.binary op a b) := by
  intro ts i rest hts
  obtain ⟨us, vs, rfl, hus, hvs⟩ := List.map_eq_append_iff.mp hts
  obtain ⟨⟨_, j⟩, vs, rfl, rfl, hvs'⟩ := List.map_eq_cons_iff.mp hvs
  rw [List.append_assoc]
  exact .product (h.takes hus hw (Phrase.stops_mark (Phrase.lengthens_product hop).1 _ _)) rfl hop
    (h' vs i rest hvs')

theorem summand (h : Firm n .term w a) : Firm n .sum w a :=
  fun ts i rest hts => .summand (h ts i rest hts) rfl

theorem sum (hop : Binary.ofSumMark? m = some op) (h : Derives .sum w a) (hw : nesting w ≤ n)
    (h' : Firm n .term v b) : Firm n .sum (w ++ .mark m :: v) (.binary op a b) := by
  intro ts i rest hts
  obtain ⟨us, vs, rfl, hus, hvs⟩ := List.map_eq_append_iff.mp hts
  obtain ⟨⟨_, j⟩, vs, rfl, rfl, hvs'⟩ := List.map_eq_cons_iff.mp hvs
  rw [List.append_assoc]
  exact .sum (h.takes hus hw (Phrase.stops_mark (Phrase.lengthens_sum hop).1 _ _)) rfl hop
    (h' vs i rest hvs') rfl

end Firm

/-- `w` is taken as a whole in front of a power sign, or else it can be raised to 0 and is then. -/
def Raisable (n : Nat) (k : Phrase) (w : List Lexeme) (a : Tree Numeral) : Prop :=
  Firm n k w a ∨ ∃ t, Derives k (w ++ [.mark .power, .number ['0']]) t ∧
    Firm n k (w ++ [.mark .power, .number ['0']]) t

section

variable {n : Nat} {w : List Lexeme} {a : Tree Numeral}

theorem Derives.raisable_power (h : Derives .power w a) (hn : nesting w ≤ n) : Raisable n .power w a := by
  cases h with
  | base h =>
    have hzero : Derives .signed [.number ['0']] .zero := .unsigned derives_zero
    exact .inr ⟨_, .raised h hzero, .raised h hn hzero (Nat.zero_le n)⟩
  | raised h h' =>
    rw [(h.closed.join h'.closed (by decide) (by decide)).nesting] at hn
    exact .inl (.raised h (le_of_max_le_left hn) h' (le_of_max_le_right hn))

theorem Derives.raisable_term (h : Derives .term w a) (hn : nesting w ≤ n) : Raisable n .term w a := by
  cases h with
  | factor h =>
    rcases h.raisable_power hn with hfirm | ⟨t, ht, hfirm⟩
    · exact .inl hfirm.factor
    · exact .inr ⟨t, .factor ht, hfirm.factor⟩
  | product hop h h' =>
    obtain ⟨-, hm, hm'⟩ := Phrase.lengthens_product hop
    rw [(h.closed.join h'.closed hm hm').nesting] at hn
    rcases h'.raisable_power (le_of_max_le_right hn) with hfirm | ⟨t, ht, hfirm⟩
    · exact .inl (hfirm.product hop h (le_of_max_le_left hn))
    · rw [Raisable, List.append_assoc]
      exact .inr ⟨_, .product hop h ht, hfirm.product hop h (le_of_max_le_left hn)⟩

theorem Derives.raisable (h : Derives .sum w a) (hn : nesting w ≤ n) : Raisable n .sum w a := by
  cases h with
  | summand h =>
    rcases h.raisable_term hn with hfirm | ⟨t, ht, hfirm⟩
    · exact .inl hfirm.summand
    · exact .inr ⟨t, .summand ht, hfirm.summand⟩
  | sum hop h h' =>
    obtain ⟨-, hm, hm'⟩ := Phrase.lengthens_sum hop
    rw [(h.closed.join h'.closed hm hm').nesting] at hn
    rcases h'.raisable_term (le_of_max_le_right hn) with hfirm | ⟨t, ht, hfirm⟩
    · exact .inl (hfirm.sum hop h (le_of_max_le_left hn))
    · rw [Raisable, List.append_assoc]
      exact .inr ⟨_, .sum hop h ht, hfirm.sum hop h (le_of_max_le_left hn)⟩

end

end FieldPlot.Expression
