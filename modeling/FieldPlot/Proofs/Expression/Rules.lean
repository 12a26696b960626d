import FieldPlot.Proofs.Expression.Completeness
import FieldPlot.Proofs.Expression.Progress

/-! The readers as rules. A reading is built by one rule for each thing a reader may meet, well formed or not, so
that a fact about every reading is an induction with one case for each rule. -/

namespace FieldPlot.Expression

/-- No operator of `op?` is left to go on with. -/
def Done (op? : Mark → Option Binary) (ts : List Token) : Prop :=
  (headMark? ts).bind op? = none

/-- Within `n` levels of brackets `ts` is taken for `r`. A sum or a term is taken as far as it has been joined; the
rules that use one ask for it to be done. -/
inductive Takes : (n : Nat) → Phrase → List Token → Reading → Prop
  | missing {n : Nat} : Takes n .operand [] ⟨.zero, [.missingAtEnd], []⟩
  | stray {n i : Nat} {m : Mark} {ts : List Token} (hm : m ≠ .opening) :
    Takes n .operand (⟨.mark m, i⟩ :: ts) ⟨.zero, [.missingBefore [m.char] i], ts⟩
  | number {n i : Nat} {s : List Char} {v : Numeral} {ts : List Token} (hv : Numeral.ofChars? s = some v) :
    Takes n .operand (⟨.number s, i⟩ :: ts) ⟨.literal v, [], ts⟩
  | malformed {n i : Nat} {s : List Char} {ts : List Token} (hv : Numeral.ofChars? s = none) :
    Takes n .operand (⟨.number s, i⟩ :: ts) ⟨.zero, [.malformedNumber s i], ts⟩
  | name {n i : Nat} {s : List Char} {a : Tree Numeral} {ts : List Token}
    (ha : Tree.ofName? (s.map Char.toLower) = some a) : Takes n .operand (⟨.name s, i⟩ :: ts) ⟨a, [], ts⟩
  | unknown {n i : Nat} {s : List Char} {ts : List Token} (ha : Tree.ofName? (s.map Char.toLower) = none)
    (hm : headMark? ts ≠ some .opening) :
    Takes n .operand (⟨.name s, i⟩ :: ts) ⟨.zero, [.unknownName s i], ts⟩
  | group {n i : Nat} {ts : List Token} {r : Reading} (h : Takes n .sum ts r)
    (hend : Done Binary.ofSumMark? r.rest) :
    Takes (n + 1) .operand (⟨.mark .opening, i⟩ :: ts) (r.close (.unmatched i))
  | call {n i j : Nat} {s : List Char} {ts : List Token} {r : Reading}
    (ha : Tree.ofName? (s.map Char.toLower) = none) (h : Takes n .sum ts r)
    (hend : Done Binary.ofSumMark? r.rest) (hc : headMark? r.rest ≠ some .comma) :
    Takes (n + 1) .operand (⟨.name s, i⟩ :: ⟨.mark .opening, j⟩ :: ts)
      ((r.close (.unmatchedCall s i)).knownCall (Function.ofName? (s.map Char.toLower)) s i
        fun f => .call f r.tree)
  | callTwo {n i j k : Nat} {s : List Char} {ts us : List Token} {r r' : Reading}
    (ha : Tree.ofName? (s.map Char.toLower) = none) (h : Takes n .sum ts r)
    (hr : r.rest = ⟨.mark .comma, k⟩ :: us) (h' : Takes n .sum us r')
    (hend : Done Binary.ofSumMark? r'.rest) :
    Takes (n + 1) .operand (⟨.name s, i⟩ :: ⟨.mark .opening, j⟩ :: ts)
      ((Reading.close (.unmatchedCall s i) { r' with issues := r.issues ++ r'.issues }).knownCall
        (Function.ofName? (s.map Char.toLower)) s i fun f => .callTwo f r.tree r'.tree)
  | minus {n i : Nat} {ts : List Token} {r : Reading} (h : Takes n .operand ts r) :
    Takes n .signed (⟨.mark .minus, i⟩ :: ts) { r with tree := .negate r.tree }
  | plus {n i : Nat} {ts : List Token} {r : Reading} (h : Takes n .operand ts r) :
    Takes n .signed (⟨.mark .plus, i⟩ :: ts) r
  | unsigned {n : Nat} {ts : List Token} {r : Reading} (hm : headMark? ts ≠ some .minus)
    (hp : headMark? ts ≠ some .plus) (h : Takes n .operand ts r) : Takes n .signed ts r
  | base {n : Nat} {ts : List Token} {r : Reading} (h : Takes n .signed ts r)
    (hm : headMark? r.rest ≠ some .power) : Takes n .power ts r
  | raised {n i : Nat} {ts us : List Token} {r s : Reading} (h : Takes n .signed ts r)
    (hr : r.rest = ⟨.mark .power, i⟩ :: us) (h' : Takes n .signed us s) : Takes n .power ts (r.join .pow s)
  | factor {n : Nat} {ts : List Token} {r : Reading} (h : Takes n .power ts r) : Takes n .term ts r
  | product {n i : Nat} {m : Mark} {op : Binary} {ts us : List Token} {r s : Reading} (h : Takes n .term ts r)
    (hr : r.rest = ⟨.mark m, i⟩ :: us) (hop : Binary.ofProductMark? m = some op) (h' : Takes n .power us s) :
    Takes n .term ts (r.join op s)
  | summand {n : Nat} {ts : List Token} {r : Reading} (h : Takes n .term ts r)
    (hend : Done Binary.ofProductMark? r.rest) : Takes n .sum ts r
  | sum {n i : Nat} {m : Mark} {op : Binary} {ts us : List Token} {r s : Reading} (h : Takes n .sum ts r)
    (hr : r.rest = ⟨.mark m, i⟩ :: us) (hop : Binary.ofSumMark? m = some op) (h' : Takes n .term us s)
    (hend : Done Binary.ofProductMark? s.rest) : Takes n .sum ts (r.join op s)

/-! ### From readers to rules -/

section

variable {inner operand : Reader} {op? : Mark → Option Binary} {n fuel : Nat} {ts : List Token} {r r' : Reading}

/-- What holds of the first operand and is kept by joining one more holds of the chain, which ends where no
operator is left. -/
theorem readChain_keeps {P : Reading → Prop} (hf : Forward operand)
    (hstep : ∀ {r s : Reading} {m i us op}, P r → r.rest = ⟨.mark m, i⟩ :: us → op? m = some op →
      operand us = some s → P (r.join op s))
    (hfuel : r.rest.length ≤ fuel) (hr : P r) (h : readChain operand op? fuel r = some r') :
    P r' ∧ Done op? r'.rest := by
  induction fuel generalizing r with
  | zero =>
    obtain rfl := Option.some.inj h
    exact ⟨hr, by rw [Done, List.length_eq_zero_iff.mp (Nat.le_zero.mp hfuel)]; rfl⟩
  | succ fuel ih =>
    cases hnext : (headMark? r.rest).bind op? with
    | none =>
      rw [readChain_end _ hnext] at h
      obtain rfl := Option.some.inj h
      exact ⟨hr, hnext⟩
    | some op =>
      obtain ⟨m, hm, hop⟩ := Option.bind_eq_some_iff.mp hnext
      obtain ⟨i, us, hrest⟩ := headMark?_eq_some.mp hm
      rw [readChain_step hrest hop] at h
      obtain ⟨s, hs, h⟩ := Option.bind_eq_some_iff.mp h
      have hlength := (hf us s hs).length_le
      rw [hrest, List.length_cons] at hfuel
      refine ih ?_ (hstep hr hrest hop hs) h
      exact hlength.trans (Nat.le_of_succ_le_succ hfuel)

theorem readOperands_keeps {P : Reading → Prop} (hf : Forward operand)
    (hfirst : ∀ r, operand ts = some r → P r)
    (hstep : ∀ {r s : Reading} {m i us op}, P r → r.rest = ⟨.mark m, i⟩ :: us → op? m = some op →
      operand us = some s → P (r.join op s))
    (h : readOperands operand op? ts = some r') : P r' ∧ Done op? r'.rest := by
  cases hr : operand ts with
  | none => simp [readOperands_none hr] at h
  | some r =>
    rw [readOperands_some hr] at h
    exact readChain_keeps hf hstep le_rfl (hfirst r hr) h

/-- `inner` reads what stands in brackets, a level further inside than `n`. -/
def Nests (n : Nat) (inner : Reader) : Prop :=
  ∀ ts r, inner ts = some r → ∃ m, n = m + 1 ∧ Takes m .sum ts r ∧ Done Binary.ofSumMark? r.rest

theorem readCall_takes (hi : Nests n inner) {s : List Char} {i j : Nat}
    (ha : Tree.ofName? (s.map Char.toLower) = none) (h : readCall inner s i ts = some r) :
    Takes n .operand (⟨.name s, i⟩ :: ⟨.mark .opening, j⟩ :: ts) r := by
  cases hf : inner ts with
  | none => simp [readCall_none hf] at h
  | some first =>
    obtain ⟨m, rfl, hfirst, hend⟩ := hi ts first hf
    by_cases hc : headMark? first.rest = some .comma
    · obtain ⟨k, us, hr⟩ := headMark?_eq_some.mp hc
      rw [readCall_two hf hr] at h
      obtain ⟨second, hs, rfl⟩ := Option.map_eq_some_iff.mp h
      obtain ⟨m', hm, hsecond, hend'⟩ := hi us second hs
      obtain rfl := Nat.succ.inj hm
      exact .callTwo ha hfirst hr hsecond hend'
    · rw [readCall_one hf hc] at h
      obtain rfl := Option.some.inj h
      exact .call ha hfirst hend hc

theorem readOperand_takes (hi : Nests n inner) (h : readOperand inner ts = some r) :
    Takes n .operand ts r := by
  match ts with
  | [] =>
    obtain rfl := Option.some.inj h
    exact .missing
  | ⟨.mark m, i⟩ :: ts =>
    by_cases hm : m = .opening
    · subst hm
      obtain ⟨first, hf, rfl⟩ := Option.map_eq_some_iff.mp h
      obtain ⟨m, rfl, hfirst, hend⟩ := hi ts first hf
      exact .group hfirst hend
    · rw [readOperand_mark hm] at h
      obtain rfl := Option.some.inj h
      exact .stray hm
  | ⟨.number s, i⟩ :: ts =>
    simp only [readOperand] at h
    cases hv : Numeral.ofChars? s with
    | none =>
      rw [hv] at h
      obtain rfl := Option.some.inj h
      exact .malformed hv
    | some v =>
      rw [hv] at h
      obtain rfl := Option.some.inj h
      exact .number hv
  | ⟨.name s, i⟩ :: ts =>
    simp only [readOperand] at h
    cases ha : Tree.ofName? (s.map Char.toLower) with
    | some a =>
      rw [ha] at h
      obtain rfl := Option.some.inj h
      exact .name ha
    | none =>
      simp only [ha] at h
      by_cases hm : headMark? ts = some .opening
      · obtain ⟨j, us, rfl⟩ := headMark?_eq_some.mp hm
        rw [if_pos hm] at h
        exact readCall_takes hi ha h
      · rw [if_neg hm] at h
        obtain rfl := Option.some.inj h
        exact .unknown ha hm

theorem readSigned_takes (hi : Nests n inner) (h : readSigned inner ts = some r) : Takes n .signed ts r := by
  by_cases hm : headMark? ts = some .minus
  · obtain ⟨i, ts, rfl⟩ := headMark?_eq_some.mp hm
    rw [readSigned_minus] at h
    obtain ⟨r, hr, rfl⟩ := Option.map_eq_some_iff.mp h
    exact .minus (readOperand_takes hi hr)
  · by_cases hp : headMark? ts = some .plus
    · obtain ⟨i, ts, rfl⟩ := headMark?_eq_some.mp hp
      exact .plus (readOperand_takes hi h)
    · rw [readSigned_unsigned hm hp] at h
      exact .unsigned hm hp (readOperand_takes hi h)

theorem readPower_takes (hi : Nests n inner) (h : readPower inner ts = some r) : Takes n .power ts r := by
  cases hb : readSigned inner ts with
  | none => simp [readPower_none hb] at h
  | some base =>
    have hbase := readSigned_takes hi hb
    by_cases hm : headMark? base.rest = some .power
    · obtain ⟨i, us, hr⟩ := headMark?_eq_some.mp hm
      rw [readPower_raised hb hr] at h
      obtain ⟨exponent, hx, rfl⟩ := Option.map_eq_some_iff.mp h
      exact .raised hbase hr (readSigned_takes hi hx)
    · rw [readPower_base hb hm] at h
      obtain rfl := Option.some.inj h
      exact .base hbase hm

theorem readTerm_takes (hf : Forward inner) (hi : Nests n inner) (h : readTerm inner ts = some r) :
    Takes n .term ts r ∧ Done Binary.ofProductMark? r.rest :=
  readOperands_keeps (readPower_forward hf) (fun _ hr => .factor (readPower_takes hi hr))
    (fun hr hrest hop hs => .product hr hrest hop (readPower_takes hi hs)) h

end

theorem readSum_takes (n : Nat) : Nests n (readSum n) := by
  induction n with
  | zero => exact fun ts r h => nomatch h
  | succ n ih =>
    intro ts r h
    have hf := readSum_forward n
    have hterm {us s} (hs : readTerm (readSum n) us = some s) := readTerm_takes hf ih hs
    obtain ⟨htakes, hend⟩ := readOperands_keeps (P := Takes n .sum ts) (readOperands_forward (readPower_forward hf))
      (fun s hs => .summand (hterm hs).1 (hterm hs).2)
      (fun hr hrest hop hs => .sum hr hrest hop (hterm hs).1 (hterm hs).2) h
    exact ⟨n, rfl, htakes, hend⟩

/-! ### From rules to readers -/

section

variable {n : Nat} {ts : List Token} {r : Reading}

theorem readChain_joins {operand : Reader} {op? : Mark → Option Binary} {fuel i : Nat} {m : Mark} {op : Binary}
    {us : List Token} {s : Reading} (hf : Forward operand) (hfuel : r.rest.length ≤ fuel)
    (hr : r.rest = ⟨.mark m, i⟩ :: us) (hop : op? m = some op) (hs : operand us = some s) :
    ∃ fuel', (r.join op s).rest.length ≤ fuel' ∧
      readChain operand op? fuel r = readChain operand op? fuel' (r.join op s) := by
  rw [hr, List.length_cons] at hfuel
  obtain ⟨fuel, rfl⟩ := Nat.exists_eq_add_of_le' (Nat.one_le_of_lt hfuel)
  refine ⟨fuel, (hf us s hs).length_le.trans (Nat.le_of_succ_le_succ hfuel), ?_⟩
  rw [readChain_step hr hop, hs, Option.bind_some]

theorem Takes.readSum_of_resume (h : ∃ fuel, r.rest.length ≤ fuel ∧
    Phrase.sum.read n ts = Phrase.sum.resume n fuel r) (hend : Done Binary.ofSumMark? r.rest) :
    Expression.readSum (n + 1) ts = some r := by
  obtain ⟨fuel, -, hread⟩ := h
  exact hread.trans (readChain_end fuel hend)

/-- The reader of a phrase goes on from what is taken by the rules. -/
theorem Takes.read {k : Phrase} (h : Takes n k ts r) :
    ∃ fuel, r.rest.length ≤ fuel ∧ k.read n ts = k.resume n fuel r := by
  induction h with
  | missing => exact ⟨0, le_rfl, rfl⟩
  | stray hm => exact ⟨_, le_rfl, readOperand_mark hm⟩
  | number hv | malformed hv | name hv =>
    refine ⟨_, le_rfl, ?_⟩
    simp only [Phrase.read, readOperand, hv, Phrase.resume]
  | unknown ha hm =>
    refine ⟨_, le_rfl, ?_⟩
    simp only [Phrase.read, readOperand, ha, if_neg hm, Phrase.resume]
  | group _ hend ih =>
    refine ⟨_, le_rfl, ?_⟩
    exact congrArg (Option.map _) (readSum_of_resume ih hend)
  | call ha _ hend hc ih =>
    refine ⟨_, le_rfl, ?_⟩
    simp only [Phrase.read, readOperand, ha, headMark?_mark, if_true, List.drop_one, List.tail_cons]
    exact readCall_one (readSum_of_resume ih hend) hc
  | callTwo ha _ hr _ hend ih ih' =>
    refine ⟨_, le_rfl, ?_⟩
    have hcomma : Done Binary.ofSumMark? _ := (congrArg (fun ts => (headMark? ts).bind _) hr).trans rfl
    simp only [Phrase.read, readOperand, ha, headMark?_mark, if_true, List.drop_one, List.tail_cons]
    rw [readCall_two (readSum_of_resume ih hcomma) hr, readSum_of_resume ih' hend]
    rfl
  | minus _ ih =>
    obtain ⟨_, _, hread⟩ := ih
    exact ⟨_, le_rfl, congrArg (Option.map _) hread⟩
  | plus _ ih => exact ih
  | unsigned hm hp _ ih =>
    obtain ⟨_, _, hread⟩ := ih
    exact ⟨_, le_rfl, (readSigned_unsigned hm hp).trans hread⟩
  | base _ hm ih =>
    obtain ⟨_, _, hread⟩ := ih
    exact ⟨_, le_rfl, readPower_base hread hm⟩
  | raised _ hr _ ih ih' =>
    obtain ⟨_, _, hread⟩ := ih
    obtain ⟨_, _, hread'⟩ := ih'
    exact ⟨_, le_rfl, (readPower_raised hread hr).trans (congrArg (Option.map _) hread')⟩
  | factor _ ih =>
    obtain ⟨_, _, hread⟩ := ih
    exact ⟨_, le_rfl, readOperands_some hread⟩
  | summand _ hend ih =>
    obtain ⟨fuel, _, hread⟩ := ih
    exact ⟨_, le_rfl, readOperands_some (hread.trans (readChain_end fuel hend))⟩
  | product _ hr hop _ ih ih' =>
    obtain ⟨fuel, hfuel, hread⟩ := ih
    obtain ⟨_, _, hread'⟩ := ih'
    obtain ⟨fuel', hfuel', hjoins⟩ := readChain_joins (readPower_forward (readSum_forward _)) hfuel hr hop hread'
    exact ⟨fuel', hfuel', hread.trans hjoins⟩
  | sum _ hr hop _ hend ih ih' =>
    obtain ⟨fuel, hfuel, hread⟩ := ih
    obtain ⟨fuel', _, hread'⟩ := ih'
    have hterm := hread'.trans (readChain_end fuel' hend)
    obtain ⟨fuel', hfuel', hjoins⟩ :=
      readChain_joins (readOperands_forward (readPower_forward (readSum_forward _))) hfuel hr hop hterm
    exact ⟨fuel', hfuel', hread.trans hjoins⟩

/-- What is read is what the rules give for a sum that is done. -/
theorem readSum_eq_some_iff :
    readSum (n + 1) ts = some r ↔ Takes n .sum ts r ∧ Done Binary.ofSumMark? r.rest := by
  constructor
  · intro h
    obtain ⟨m, hm, htakes, hend⟩ := readSum_takes (n + 1) ts r h
    obtain rfl := Nat.succ.inj hm
    exact ⟨htakes, hend⟩
  · rintro ⟨h, hend⟩
    exact Takes.readSum_of_resume h.read hend

end

/-! ### Derived phrases -/

theorem Phrase.lengthens_product {m : Mark} {op : Binary} (hop : Binary.ofProductMark? m = some op) :
    Phrase.term.lengthens m = false ∧ m ≠ .opening ∧ m ≠ .closing := by
  rcases mark_of_product hop with rfl | rfl <;> exact ⟨rfl, by decide, by decide⟩

theorem Phrase.lengthens_sum {m : Mark} {op : Binary} (hop : Binary.ofSumMark? m = some op) :
    Phrase.sum.lengthens m = false ∧ m ≠ .opening ∧ m ≠ .closing := by
  rcases mark_of_sum hop with rfl | rfl <;> exact ⟨rfl, by decide, by decide⟩

section

variable {n : Nat} {k : Phrase} {w : List Lexeme} {a : Tree Numeral} {ts rest : List Token}

theorem Derives.read_eq (h : Derives k w a) (hts : ts.map Token.lexeme = w) (hn : nesting w ≤ n)
    (hrest : k.Stops rest) : ∃ fuel, k.read n (ts ++ rest) = k.resume n fuel ⟨a, [], rest⟩ := by
  obtain ⟨fuel, -, hread⟩ := h.reads n ts rest hts hrest
  exact ⟨fuel, hread.trans (if_pos hn)⟩

theorem Derives.takes_power (h : Derives .power w a) (hts : ts.map Token.lexeme = w) (hn : nesting w ≤ n)
    (hrest : Phrase.power.Stops rest) : Takes n .power (ts ++ rest) ⟨a, [], rest⟩ := by
  obtain ⟨_, hread⟩ := h.read_eq hts hn hrest
  exact readPower_takes (readSum_takes n) hread

theorem Derives.takes_term {w : List Lexeme} {a : Tree Numeral} {ts rest : List Token} (h : Derives .term w a)
    (hts : ts.map Token.lexeme = w) (hn : nesting w ≤ n) (hrest : Phrase.term.Stops rest) :
    Takes n .term (ts ++ rest) ⟨a, [], rest⟩ := by
  cases h with
  | factor h => exact .factor (h.takes_power hts hn hrest)
  | product hop h h' =>
    obtain ⟨us, vs, rfl, hu, hv⟩ := List.map_eq_append_iff.mp hts
    obtain ⟨⟨_, i⟩, vs, rfl, rfl, hv'⟩ := List.map_eq_cons_iff.mp hv
    obtain ⟨hstop, hm, hm'⟩ := Phrase.lengthens_product hop
    rw [(h.closed.join h'.closed hm hm').nesting] at hn
    have hleft := Derives.takes_term h hu (le_of_max_le_left hn) (Phrase.stops_mark hstop i (vs ++ rest))
    rw [List.append_assoc]
    exact .product hleft rfl hop (h'.takes_power hv' (le_of_max_le_right hn) hrest)

theorem Derives.takes_sum {w : List Lexeme} {a : Tree Numeral} {ts rest : List Token} (h : Derives .sum w a)
    (hts : ts.map Token.lexeme = w) (hn : nesting w ≤ n) (hrest : Phrase.sum.Stops rest) :
    Takes n .sum (ts ++ rest) ⟨a, [], rest⟩ := by
  cases h with
  | summand h => exact .summand (h.takes_term hts hn (hrest.of_sum .term)) hrest.not_product
  | sum hop h h' =>
    obtain ⟨us, vs, rfl, hu, hv⟩ := List.map_eq_append_iff.mp hts
    obtain ⟨⟨_, i⟩, vs, rfl, rfl, hv'⟩ := List.map_eq_cons_iff.mp hv
    obtain ⟨hstop, hm, hm'⟩ := Phrase.lengthens_sum hop
    rw [(h.closed.join h'.closed hm hm').nesting] at hn
    have hleft := Derives.takes_sum h hu (le_of_max_le_left hn) (Phrase.stops_mark hstop i (vs ++ rest))
    rw [List.append_assoc]
    exact .sum hleft rfl hop (h'.takes_term hv' (le_of_max_le_right hn) (hrest.of_sum .term)) hrest.not_product

/-- What is derived from the grammar is taken without an issue, in front of anything that does not lengthen it. -/
theorem Derives.takes (h : Derives k w a) (hts : ts.map Token.lexeme = w) (hn : nesting w ≤ n)
    (hrest : k.Stops rest) : Takes n k (ts ++ rest) ⟨a, [], rest⟩ := by
  obtain ⟨_, hread⟩ := h.read_eq hts hn hrest
  cases k with
  | sum => exact h.takes_sum hts hn hrest
  | term => exact h.takes_term hts hn hrest
  | power => exact h.takes_power hts hn hrest
  | signed => exact readSigned_takes (readSum_takes n) hread
  | operand => exact readOperand_takes (readSum_takes n) hread

theorem Derives.takes_all (h : Derives k w a) (hts : ts.map Token.lexeme = w) (hn : nesting w ≤ n) :
    Takes n k ts ⟨a, [], []⟩ := by
  have htakes : Takes n k (ts ++ []) ⟨a, [], []⟩ := h.takes hts hn fun _ hm => nomatch hm
  rwa [List.append_nil] at htakes

end

end FieldPlot.Expression
