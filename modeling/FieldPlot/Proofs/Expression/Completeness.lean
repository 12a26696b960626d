import FieldPlot.Proofs.Expression.Literal
import FieldPlot.Proofs.Expression.Readers

/-! What is derived from the grammar is read without an issue, up to the nesting that the readers
allow, and a derivation that is nested deeper is refused. -/

namespace FieldPlot.Expression

/-- The reader of a phrase whose brackets hold at most `levels` levels. -/
def Phrase.read (levels : Nat) : Phrase → Reader
  | sum => readSum (levels + 1)
  | term => readTerm (readSum levels)
  | power => readPower (readSum levels)
  | signed => readSigned (readSum levels)
  | operand => readOperand (readSum levels)

/-- How the reader of a phrase goes on behind what is derived from it: the readers of sums and
products look for a further operand. -/
def Phrase.resume (levels fuel : Nat) (r : Reading) : Phrase → Option Reading
  | sum => readChain (readTerm (readSum levels)) Binary.ofSumMark? fuel r
  | term => readChain (readPower (readSum levels)) Binary.ofProductMark? fuel r
  | _ => some r

/-- The marks that would lengthen the last operand of a phrase. -/
def Phrase.lengthens (m : Mark) : Phrase → Bool
  | sum => m = .power || (Binary.ofProductMark? m).isSome
  | term | power => m = .power
  | signed | operand => false

/-- No mark at the head of `rest` lengthens the last operand of `k`. -/
def Phrase.Stops (k : Phrase) (rest : List Token) : Prop :=
  ∀ m, headMark? rest = some m → k.lengthens m = false

/-- The reader of `k` takes `ts`, which is written as `w`, for the tree `a` and goes on behind it. -/
def Reads (k : Phrase) (w : List Lexeme) (a : Tree Numeral) : Prop :=
  ∀ levels ts rest, ts.map Token.lexeme = w → k.Stops rest →
    ∃ fuel, rest.length ≤ fuel ∧ k.read levels (ts ++ rest) =
      if nesting w ≤ levels then k.resume levels fuel ⟨a, [], rest⟩ else none

theorem Phrase.Stops.not_power {rest : List Token} (h : Phrase.power.Stops rest) :
    headMark? rest ≠ some .power := by
  intro hm
  exact absurd (h _ hm) (by decide)

theorem Phrase.Stops.not_product {rest : List Token} (h : Phrase.sum.Stops rest) :
    (headMark? rest).bind Binary.ofProductMark? = none := by
  cases hm : headMark? rest with
  | none => rfl
  | some m =>
    have hl := h m hm
    cases m <;> first | rfl | exact absurd hl (by decide)

theorem Phrase.Stops.of_sum {rest : List Token} (h : Phrase.sum.Stops rest) (k : Phrase) :
    k.Stops rest := by
  intro m hm
  have hl := h m hm
  cases k <;> cases m <;> first | rfl | exact absurd hl (by decide)

theorem Phrase.stops_mark {k : Phrase} {m : Mark} (h : k.lengthens m = false) (n : Nat)
    (ts : List Token) : k.Stops (⟨.mark m, n⟩ :: ts) := by
  intro m' hm
  obtain rfl := Option.some.inj hm
  exact h

section

variable {w v : List Lexeme} {a b : Tree Numeral} {levels : Nat} {ts rest : List Token}

def AtEnd (rest : List Token) : Prop :=
  Phrase.sum.Stops rest ∧ (headMark? rest).bind Binary.ofSumMark? = none

theorem Reads.term_exact (h : Reads .term w a) (levels : Nat) (hts : ts.map Token.lexeme = w)
    (hr : Phrase.sum.Stops rest) :
    readTerm (readSum levels) (ts ++ rest) =
      if nesting w ≤ levels then some ⟨a, [], rest⟩ else none := by
  obtain ⟨fuel, _, hread⟩ := h levels ts rest hts (hr.of_sum .term)
  have hc : Phrase.term.resume levels fuel ⟨a, [], rest⟩ = some ⟨a, [], rest⟩ :=
    readChain_end fuel hr.not_product
  rw [hc] at hread
  exact hread

theorem Reads.sum_exact (h : Reads .sum w a) (levels : Nat) (hts : ts.map Token.lexeme = w)
    (hr : AtEnd rest) :
    readSum levels (ts ++ rest) = if nesting w + 1 ≤ levels then some ⟨a, [], rest⟩ else none := by
  cases levels with
  | zero => rfl
  | succ levels =>
    obtain ⟨fuel, _, hread⟩ := h levels ts rest hts hr.1
    have hc : Phrase.sum.resume levels fuel ⟨a, [], rest⟩ = some ⟨a, [], rest⟩ :=
      readChain_end fuel hr.2
    rw [hc] at hread
    simp only [Nat.succ_le_succ_iff]
    exact hread

theorem reads_number {s : List Char} (hs : ∀ c ∈ s, isNumberChar c = true)
    (hdigit : ∃ c ∈ s, c.isDigit = true) (hpoint : s.count '.' ≤ 1) :
    Reads .operand [.number s] (.literal (decimal s)) := by
  intro levels ts rest hts _
  obtain ⟨⟨_, i⟩, rfl, rfl⟩ := List.map_eq_singleton_iff.mp hts
  have hn := (Numeral.ofChars?_eq_some_iff hs).mpr ⟨hdigit, hpoint, rfl⟩
  refine ⟨rest.length, le_rfl, ?_⟩
  simp [Phrase.read, Phrase.resume, readOperand, hn, nesting, deepest]

theorem reads_name {s : List Char} (ha : Tree.ofName? (s.map Char.toLower) = some a) :
    Reads .operand [.name s] a := by
  intro levels ts rest hts _
  obtain ⟨⟨_, i⟩, rfl, rfl⟩ := List.map_eq_singleton_iff.mp hts
  refine ⟨rest.length, le_rfl, ?_⟩
  simp [Phrase.read, Phrase.resume, readOperand, ha, nesting, deepest]

theorem Reads.group (hc : Closed (nesting w) w) (h : Reads .sum w a) :
    Reads .operand (.mark .opening :: w ++ [.mark .closing]) a := by
  intro levels ts rest hts _
  obtain ⟨us, vs, rfl, hu, hv⟩ := List.map_eq_append_iff.mp hts
  obtain ⟨⟨_, i⟩, us, rfl, rfl, hw⟩ := List.map_eq_cons_iff.mp hu
  obtain ⟨⟨_, j⟩, rfl, rfl⟩ := List.map_eq_singleton_iff.mp hv
  have hend : AtEnd (⟨.mark .closing, j⟩ :: rest) := ⟨Phrase.stops_mark rfl _ _, rfl⟩
  have hread := h.sum_exact levels hw hend
  refine ⟨rest.length, le_rfl, ?_⟩
  have hop : Phrase.operand.read levels (⟨.mark .opening, i⟩ :: us ++ [⟨.mark .closing, j⟩] ++ rest) =
      (readSum levels (us ++ ⟨.mark .closing, j⟩ :: rest)).map (Reading.close (.unmatched i)) := by
    simp [Phrase.read, readOperand]
  rw [hop, hread, hc.bracket.nesting]
  by_cases hn : nesting w + 1 ≤ levels
  · rw [if_pos hn, if_pos hn]
    exact congrArg some (Reading.close_closing _ rfl)
  · rw [if_neg hn, if_neg hn]
    rfl

theorem readOperand_call {s : List Char} {i j : Nat} {f : Function} {inner : Reader}
    (hf : s.map Char.toLower = f.name.toList) :
    readOperand inner (⟨.name s, i⟩ :: ⟨.mark .opening, j⟩ :: ts) = readCall inner s i ts := by
  simp [readOperand, hf, Tree.ofName?_function]

theorem Reads.call {s : List Char} {f : Function} (hf : s.map Char.toLower = f.name.toList)
    (hc : Closed (nesting w) w) (h : Reads .sum w a) :
    Reads .operand (.name s :: .mark .opening :: w ++ [.mark .closing]) (.call f a) := by
  intro levels ts rest hts _
  obtain ⟨us, vs, rfl, hu, hv⟩ := List.map_eq_append_iff.mp hts
  obtain ⟨⟨_, i⟩, us, rfl, rfl, hw⟩ := List.map_eq_cons_iff.mp hu
  obtain ⟨⟨_, k⟩, us, rfl, rfl, hw'⟩ := List.map_eq_cons_iff.mp hw
  obtain ⟨⟨_, j⟩, rfl, rfl⟩ := List.map_eq_singleton_iff.mp hv
  have hend : AtEnd (⟨.mark .closing, j⟩ :: rest) := ⟨Phrase.stops_mark rfl _ _, rfl⟩
  have hread := h.sum_exact levels hw' hend
  refine ⟨rest.length, le_rfl, ?_⟩
  have hop : Phrase.operand.read levels
      (⟨.name s, i⟩ :: ⟨.mark .opening, k⟩ :: us ++ [⟨.mark .closing, j⟩] ++ rest) =
      readCall (readSum levels) s i (us ++ ⟨.mark .closing, j⟩ :: rest) := by
    simpa [Phrase.read] using readOperand_call hf
  rw [hop, hc.call_nesting]
  by_cases hn : nesting w + 1 ≤ levels
  · rw [if_pos hn] at hread
    rw [if_pos hn, readCall_one hread (by simp), Reading.close_closing _ rfl, hf,
      Function.ofName?_name]
    rfl
  · rw [if_neg hn] at hread
    rw [if_neg hn, readCall_none hread]

theorem Reads.callTwo {s : List Char} {f : Function} (hf : s.map Char.toLower = f.name.toList)
    (hc : Closed (nesting w) w) (hc' : Closed (nesting v) v) (h : Reads .sum w a)
    (h' : Reads .sum v b) :
    Reads .operand (.name s :: .mark .opening :: (w ++ .mark .comma :: v) ++ [.mark .closing])
      (.callTwo f a b) := by
  intro levels ts rest hts _
  obtain ⟨us, vs, rfl, hu, hv⟩ := List.map_eq_append_iff.mp hts
  obtain ⟨⟨_, i⟩, us, rfl, rfl, hw⟩ := List.map_eq_cons_iff.mp hu
  obtain ⟨⟨_, k⟩, us, rfl, rfl, hargs⟩ := List.map_eq_cons_iff.mp hw
  obtain ⟨us, xs, rfl, hw', hx⟩ := List.map_eq_append_iff.mp hargs
  obtain ⟨⟨_, c⟩, xs, rfl, rfl, hx'⟩ := List.map_eq_cons_iff.mp hx
  obtain ⟨⟨_, j⟩, rfl, rfl⟩ := List.map_eq_singleton_iff.mp hv
  have hcomma : AtEnd (⟨.mark .comma, c⟩ :: (xs ++ ⟨.mark .closing, j⟩ :: rest)) :=
    ⟨Phrase.stops_mark rfl _ _, rfl⟩
  have hend : AtEnd (⟨.mark .closing, j⟩ :: rest) := ⟨Phrase.stops_mark rfl _ _, rfl⟩
  have hread := h.sum_exact levels hw' hcomma
  have hread' := h'.sum_exact levels hx' hend
  refine ⟨rest.length, le_rfl, ?_⟩
  have hop : Phrase.operand.read levels (⟨.name s, i⟩ :: ⟨.mark .opening, k⟩ ::
      (us ++ ⟨.mark .comma, c⟩ :: xs) ++ [⟨.mark .closing, j⟩] ++ rest) =
      readCall (readSum levels) s i
        (us ++ ⟨.mark .comma, c⟩ :: (xs ++ ⟨.mark .closing, j⟩ :: rest)) := by
    simpa [Phrase.read] using readOperand_call hf
  rw [hop, (hc.join hc' (by decide) (by decide)).call_nesting]
  by_cases hn : nesting w + 1 ≤ levels
  · rw [if_pos hn] at hread
    rw [readCall_two hread rfl, hread']
    by_cases hn' : nesting v + 1 ≤ levels
    · rw [if_pos hn', if_pos (by omega), Option.map_some,
        Reading.close_closing _ rfl, hf, Function.ofName?_name]
      rfl
    · rw [if_neg hn', if_neg (by omega)]
      rfl
  · rw [if_neg hn] at hread
    rw [readCall_none hread, if_neg (by omega)]

theorem headMark?_append_ne {m : Mark} (hts : ts.map Token.lexeme = w) (h0 : w ≠ [])
    (hne : w.head? ≠ some (.mark m)) : headMark? (ts ++ rest) ≠ some m := by
  intro he
  obtain ⟨n, us, hu⟩ := headMark?_eq_some.mp he
  cases ts with
  | nil => exact h0 hts.symm
  | cons t ts =>
    obtain rfl := (List.cons.inj hu).1
    exact hne (hts ▸ rfl)

theorem Reads.unsigned (h : Reads .operand w a) (hm : w.head? ≠ some (.mark .minus))
    (hp : w.head? ≠ some (.mark .plus)) (h0 : w ≠ []) : Reads .signed w a := by
  intro levels ts rest hts _
  obtain ⟨fuel, hfuel, hread⟩ := h levels ts rest hts fun _ _ => rfl
  refine ⟨fuel, hfuel, ?_⟩
  exact (readSigned_unsigned (headMark?_append_ne hts h0 hm) (headMark?_append_ne hts h0 hp)).trans hread

theorem Reads.plus (h : Reads .operand w a) : Reads .signed (.mark .plus :: w) a := by
  intro levels ts rest hts _
  obtain ⟨⟨_, i⟩, us, rfl, rfl, hw⟩ := List.map_eq_cons_iff.mp hts
  exact h levels us rest hw fun _ _ => rfl

theorem Reads.minus (h : Reads .operand w a) : Reads .signed (.mark .minus :: w) (.negate a) := by
  intro levels ts rest hts _
  obtain ⟨⟨_, i⟩, us, rfl, rfl, hw⟩ := List.map_eq_cons_iff.mp hts
  obtain ⟨fuel, hfuel, hread⟩ := h levels us rest hw fun _ _ => rfl
  refine ⟨fuel, hfuel, ?_⟩
  have hop : Phrase.signed.read levels (⟨.mark .minus, i⟩ :: us ++ rest) =
      (Phrase.operand.read levels (us ++ rest)).map fun r => { r with tree := .negate r.tree } := rfl
  rw [hop, hread, show nesting (.mark .minus :: w) = nesting w from rfl]
  by_cases hn : nesting w ≤ levels
  · rw [if_pos hn, if_pos hn]
    rfl
  · rw [if_neg hn, if_neg hn]
    rfl

theorem Reads.base (h : Reads .signed w a) : Reads .power w a := by
  intro levels ts rest hts hr
  obtain ⟨fuel, hfuel, hread⟩ := h levels ts rest hts fun _ _ => rfl
  refine ⟨fuel, hfuel, ?_⟩
  by_cases hn : nesting w ≤ levels
  · rw [if_pos hn] at hread ⊢
    exact readPower_base hread hr.not_power
  · rw [if_neg hn] at hread ⊢
    exact readPower_none hread

theorem Reads.raised (hc : Closed (nesting w) w) (hc' : Closed (nesting v) v)
    (h : Reads .signed w a) (h' : Reads .signed v b) :
    Reads .power (w ++ .mark .power :: v) (.binary .pow a b) := by
  intro levels ts rest hts _
  obtain ⟨us, vs, rfl, hu, hv⟩ := List.map_eq_append_iff.mp hts
  obtain ⟨⟨_, i⟩, vs, rfl, rfl, hv'⟩ := List.map_eq_cons_iff.mp hv
  obtain ⟨_, _, hread⟩ := h levels us (⟨.mark .power, i⟩ :: vs ++ rest) hu fun _ _ => rfl
  obtain ⟨fuel, hfuel, hread'⟩ := h' levels vs rest hv' fun _ _ => rfl
  refine ⟨fuel, hfuel, ?_⟩
  rw [(hc.join hc' (by decide) (by decide)).nesting, List.append_assoc]
  by_cases hn : nesting w ≤ levels
  · rw [if_pos hn] at hread
    have hop : Phrase.power.read levels (us ++ (⟨.mark .power, i⟩ :: vs ++ rest)) =
        (Phrase.signed.read levels (vs ++ rest)).map (Reading.join .pow ⟨a, [], _⟩) :=
      readPower_raised hread rfl
    rw [hop, hread']
    by_cases hn' : nesting v ≤ levels
    · rw [if_pos hn', if_pos (max_le hn hn')]
      rfl
    · rw [if_neg hn', if_neg (by omega)]
      rfl
  · rw [if_neg hn] at hread
    rw [if_neg (by omega)]
    exact readPower_none hread

theorem Reads.factor (h : Reads .power w a) : Reads .term w a := by
  intro levels ts rest hts hr
  obtain ⟨_, _, hread⟩ := h levels ts rest hts hr
  refine ⟨rest.length, le_rfl, ?_⟩
  by_cases hn : nesting w ≤ levels
  · rw [if_pos hn] at hread ⊢
    exact readOperands_some hread
  · rw [if_neg hn] at hread ⊢
    exact readOperands_none hread

theorem Reads.summand (h : Reads .term w a) : Reads .sum w a := by
  intro levels ts rest hts hr
  have hread := h.term_exact levels hts hr
  refine ⟨rest.length, le_rfl, ?_⟩
  by_cases hn : nesting w ≤ levels
  · rw [if_pos hn] at hread ⊢
    exact readOperands_some hread
  · rw [if_neg hn] at hread ⊢
    exact readOperands_none hread

/-- A derivation of `k` that is joined with one of the phrase `j` its reader looks for. -/
theorem Reads.joined {k j : Phrase} {op? : Mark → Option Binary} {m : Mark} {op : Binary}
    (hk : ∀ levels fuel r, k.resume levels fuel r = readChain (j.read levels) op? fuel r)
    (hj : ∀ levels ts rest, ts.map Token.lexeme = v → k.Stops rest → j.read levels (ts ++ rest) =
      if nesting v ≤ levels then some ⟨b, [], rest⟩ else none)
    (hstop : k.lengthens m = false) (hm : m ≠ .opening) (hm' : m ≠ .closing)
    (hop : op? m = some op) (hc : Closed (nesting w) w) (hc' : Closed (nesting v) v)
    (h : Reads k w a) : Reads k (w ++ .mark m :: v) (.binary op a b) := by
  intro levels ts rest hts hr
  obtain ⟨us, vs, rfl, hu, hv⟩ := List.map_eq_append_iff.mp hts
  obtain ⟨⟨_, i⟩, vs, rfl, rfl, hv'⟩ := List.map_eq_cons_iff.mp hv
  obtain ⟨fuel, hfuel, hread⟩ := h levels us (⟨.mark m, i⟩ :: (vs ++ rest)) hu
    (Phrase.stops_mark hstop _ _)
  -- One round of the reader's loop takes `m` and what follows it.
  obtain ⟨fuel, rfl⟩ : ∃ n, fuel = n + 1 := ⟨fuel - 1, by simp at hfuel; omega⟩
  have hround : readChain (j.read levels) op? (fuel + 1) ⟨a, [], ⟨.mark m, i⟩ :: (vs ++ rest)⟩ =
      (j.read levels (vs ++ rest)).bind fun r =>
        readChain (j.read levels) op? fuel (Reading.join op ⟨a, [], ⟨.mark m, i⟩ :: (vs ++ rest)⟩ r) :=
    readChain_step rfl hop
  refine ⟨fuel, by simp at hfuel; omega, ?_⟩
  rw [(hc.join hc' hm hm').nesting, List.append_assoc, List.cons_append, hread]
  by_cases hn : nesting w ≤ levels
  · rw [if_pos hn, hk, hround, hj levels vs rest hv' hr]
    by_cases hn' : nesting v ≤ levels
    · rw [if_pos hn', if_pos (max_le hn hn'), hk]
      rfl
    · rw [if_neg hn', if_neg (by omega)]
      rfl
  · rw [if_neg hn, if_neg (by omega)]

theorem Reads.product {m : Mark} {op : Binary} (hop : Binary.ofProductMark? m = some op)
    (hc : Closed (nesting w) w) (hc' : Closed (nesting v) v) (h : Reads .term w a)
    (h' : Reads .power v b) : Reads .term (w ++ .mark m :: v) (.binary op a b) := by
  have hexact : ∀ levels ts rest, ts.map Token.lexeme = v → Phrase.term.Stops rest →
      Phrase.power.read levels (ts ++ rest) =
        if nesting v ≤ levels then some ⟨b, [], rest⟩ else none := by
    intro levels ts rest hts hr
    obtain ⟨_, _, hread⟩ := h' levels ts rest hts hr
    exact hread
  rcases mark_of_product hop with rfl | rfl <;>
    exact h.joined (fun _ _ _ => rfl) hexact rfl (by decide) (by decide) hop hc hc'

theorem Reads.sum {m : Mark} {op : Binary} (hop : Binary.ofSumMark? m = some op)
    (hc : Closed (nesting w) w) (hc' : Closed (nesting v) v) (h : Reads .sum w a)
    (h' : Reads .term v b) : Reads .sum (w ++ .mark m :: v) (.binary op a b) := by
  have hexact : ∀ levels ts rest, ts.map Token.lexeme = v → Phrase.sum.Stops rest →
      Phrase.term.read levels (ts ++ rest) =
        if nesting v ≤ levels then some ⟨b, [], rest⟩ else none :=
    fun _ _ _ hts hr => h'.term_exact _ hts hr
  rcases mark_of_sum hop with rfl | rfl <;>
    exact h.joined (fun _ _ _ => rfl) hexact rfl (by decide) (by decide) hop hc hc'

end

/-- An operand starts with a number, a name or an opening bracket. -/
theorem Derives.operand_head {w : List Lexeme} {a : Tree Numeral} (h : Derives .operand w a) :
    w ≠ [] ∧ w.head? ≠ some (.mark .minus) ∧ w.head? ≠ some (.mark .plus) := by
  cases h <;> simp

theorem Derives.reads {k : Phrase} {w : List Lexeme} {a : Tree Numeral} (h : Derives k w a) :
    Reads k w a := by
  induction h with
  | number hs hdigit hpoint => exact reads_number hs hdigit hpoint
  | name ha => exact reads_name ha
  | group h ih => exact ih.group h.closed
  | call hf h ih => exact ih.call hf h.closed
  | callTwo hf h h' ih ih' => exact ih.callTwo hf h.closed h'.closed ih'
  | unsigned h ih =>
    obtain ⟨h0, hm, hp⟩ := h.operand_head
    exact ih.unsigned hm hp h0
  | plus _ ih => exact ih.plus
  | minus _ ih => exact ih.minus
  | base _ ih => exact ih.base
  | raised h h' ih ih' => exact ih.raised h.closed h'.closed ih'
  | factor _ ih => exact ih.factor
  | product hop h h' ih ih' => exact ih.product hop h.closed h'.closed ih'
  | summand _ ih => exact ih.summand
  | sum hop h h' ih ih' => exact ih.sum hop h.closed h'.closed ih'

/-- A derived sum is read as a whole if its brackets fit into the levels, and not at all if not. -/
theorem Derives.readSum {ts : List Token} {a : Tree Numeral}
    (h : Derives .sum (ts.map Token.lexeme) a) (levels : Nat) :
    readSum levels ts =
      if nesting (ts.map Token.lexeme) < levels then some ⟨a, [], []⟩ else none := by
  have hend : AtEnd [] := ⟨fun m hm => by simp [headMark?] at hm, rfl⟩
  have hread := h.reads.sum_exact levels rfl hend
  rwa [List.append_nil] at hread

end FieldPlot.Expression
