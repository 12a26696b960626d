import FieldPlot.Expression.Double
import FieldPlot.Expression.Formula
import FieldPlot.Proofs.Expression.ClosingBrackets

/-! Texts in brackets. A text that is put into brackets is read as before where its reading leaves no operator
behind, and within one level less. Otherwise the brackets end early, and the operator is applied to them. Closing
brackets alone, behind a text, change nothing. -/

namespace FieldPlot.Expression

/-! ### Going on behind an operand -/

def Mark.isOperator : Mark → Bool
  | plus | minus | times | divide | power => true
  | opening | closing | comma => false

/-- The power whose base is `r`, or `r` itself. -/
def Reading.raise (inner : Reader) (r : Reading) : Option Reading :=
  if headMark? r.rest = some .power then (readSigned inner (r.rest.drop 1)).map (r.join .pow) else some r

/-- The sum whose first operand is `r`: its power, then its product, then all of it. -/
def Reading.goOn (inner : Reader) (r : Reading) : Option Reading := do
  let raised ← r.raise inner
  let product ← readChain (readPower inner) Binary.ofProductMark? raised.rest.length raised
  readChain (readTerm inner) Binary.ofSumMark? product.rest.length product

theorem readSum_opening (n i : Nat) (us : List Token) :
    readSum (n + 1) (⟨.mark .opening, i⟩ :: us) =
      (readSum n us).bind fun r => (r.close (.unmatched i)).goOn (readSum n) := by
  have hsigned : readSigned (readSum n) (⟨.mark .opening, i⟩ :: us) =
      (readSum n us).map (Reading.close (.unmatched i)) := rfl
  simp only [readSum, readTerm, readOperands, readPower, hsigned, Reading.goOn, Reading.raise]
  cases readSum n us with
  | none => rfl
  | some r =>
    simp only [Option.map_some, Option.bind_some, Option.bind_eq_bind]
    split
    · cases readSigned (readSum n) ((r.close (.unmatched i)).rest.drop 1) <;> rfl
    · rfl

section

variable {inner operand : Reader} {op? : Mark → Option Binary} {r r' : Reading}

theorem Reading.goOn_of_no_operator (h : ∀ m, headMark? r.rest = some m → m.isOperator = false) :
    r.goOn inner = some r := by
  have hpower : headMark? r.rest ≠ some .power := fun he => nomatch h _ he
  have hchain {op? : Mark → Option Binary} (hop : ∀ m, m.isOperator = false → op? m = none) :
      (headMark? r.rest).bind op? = none :=
    Option.bind_eq_none_iff.mpr fun m hm => hop m (h m hm)
  simp only [Reading.goOn, Reading.raise, if_neg hpower, Option.bind_eq_bind, Option.bind_some]
  rw [readChain_end _ (hchain fun m hm => by cases m <;> first | rfl | cases hm), Option.bind_some,
    readChain_end _ (hchain fun m hm => by cases m <;> first | rfl | cases hm)]

/-! ### Counting operators -/

/-- The arithmetic that counts the operators between its operands. -/
@[reducible]
def counting : Arithmetic ℕ where
  numeral _ := 0
  pi := 0
  euler := 0
  neg a := a
  add a b := a + b + 1
  sub a b := a + b + 1
  mul a b := a + b + 1
  div a b := a + b + 1
  pow a b := a + b + 1
  sin a := a
  cos a := a
  tan a := a
  asin a := a
  acos a := a
  atan a := a
  atan2 a b := a + b
  sinh a := a
  cosh a := a
  tanh a := a
  exp a := a
  log a := a
  log10 a := a
  sqrt a := a
  abs a := a
  floor a := a
  ceil a := a
  rounded a := a
  sign a := a
  minimum a b := a + b
  maximum a b := a + b
  mod a b := a + b

def Tree.weight (a : Tree Numeral) : ℕ :=
  letI := counting
  (a.map Arithmetic.numeral).eval (⟨0, 0, 0⟩ : Point ℕ)

theorem Reading.join_weight (op : Binary) (r s : Reading) :
    (r.join op s).tree.weight = r.tree.weight + s.tree.weight + 1 := by
  cases op <;> rfl

theorem readChain_weight {fuel : Nat} (h : readChain operand op? fuel r = some r') :
    r.tree.weight ≤ r'.tree.weight := by
  induction fuel generalizing r with
  | zero => exact Option.some.inj h ▸ le_rfl
  | succ fuel ih =>
    cases hop : (headMark? r.rest).bind op? with
    | none =>
      rw [readChain_end _ hop] at h
      exact Option.some.inj h ▸ le_rfl
    | some op =>
      obtain ⟨m, hm, hop⟩ := Option.bind_eq_some_iff.mp hop
      obtain ⟨n, us, hr⟩ := headMark?_eq_some.mp hm
      rw [readChain_step hr hop] at h
      obtain ⟨s, -, h⟩ := Option.bind_eq_some_iff.mp h
      have hgrown := ih h
      rw [Reading.join_weight] at hgrown
      omega

theorem readChain_weight_lt {op : Binary} (hop : (headMark? r.rest).bind op? = some op)
    (h : readChain operand op? r.rest.length r = some r') : r.tree.weight < r'.tree.weight := by
  obtain ⟨m, hm, hop⟩ := Option.bind_eq_some_iff.mp hop
  obtain ⟨n, us, hr⟩ := headMark?_eq_some.mp hm
  rw [hr, List.length_cons, readChain_step hr hop] at h
  obtain ⟨s, -, h⟩ := Option.bind_eq_some_iff.mp h
  have hgrown := readChain_weight h
  rw [Reading.join_weight] at hgrown
  omega

theorem Reading.goOn_weight_lt {m : Mark} (hm : headMark? r.rest = some m) (hop : m.isOperator = true)
    (h : r.goOn inner = some r') : r.tree.weight < r'.tree.weight := by
  simp only [Reading.goOn, Option.bind_eq_bind, Option.bind_eq_some_iff] at h
  obtain ⟨raised, hraised, product, hproduct, h⟩ := h
  have hbase (hpower : m ≠ .power) : raised = r := by
    rw [Reading.raise, if_neg fun he => hpower (Option.some.inj (hm.symm.trans he))] at hraised
    exact (Option.some.inj hraised).symm
  cases m with
  | opening | closing | comma => cases hop
  | power =>
    rw [Reading.raise, if_pos hm] at hraised
    obtain ⟨exponent, -, rfl⟩ := Option.map_eq_some_iff.mp hraised
    have hgrown := (readChain_weight hproduct).trans (readChain_weight h)
    rw [Reading.join_weight] at hgrown
    omega
  | times | divide =>
    obtain rfl := hbase (by decide)
    exact (readChain_weight_lt (by rw [hm]; rfl) hproduct).trans_le (readChain_weight h)
  | plus | minus =>
    obtain rfl := hbase (by decide)
    rw [readChain_end _ (by rw [hm]; rfl)] at hproduct
    obtain rfl := Option.some.inj hproduct
    exact readChain_weight_lt (by rw [hm]; rfl) h

end

/-! ### Brackets around a text -/

def enclosed (s : List Char) : List Char :=
  '(' :: s ++ [')']

theorem tokens_enclosed (s : List Char) :
    ∃ us, tokens (enclosed s) = ⟨.mark .opening, 0⟩ :: us ∧ Alike (tokens s) us := by
  refine ⟨tokensFrom 1 (s ++ [')']), by simp [tokens, enclosed, tokensFrom, Mark.ofChar?], ?_⟩
  refine Alike.append_closers [⟨.mark .closing, 0⟩] ?_ (by simp [Closers])
  rw [map_lexeme_tokensFrom 1 0]
  have hlexemes := lexemes_append_mark s .closing []
  rwa [lexemes_nil] at hlexemes

/-- The texts have the same value, or both are nested too deeply, at every point in every arithmetic. -/
def SameValues (s t : List Char) : Prop :=
  ∀ (α : Type) [Arithmetic α] (p : Point α), (evaluate s p).map (·.value) = (evaluate t p).map (·.value)

/-- Whether an operator is left over where the reading ends, or behind one closing bracket there. -/
def Reading.LeavesOperator (r : Reading) : Prop :=
  ∃ m, headMark? (afterClosing r.rest) = some m ∧ m.isOperator = true

theorem evaluate_value {α : Type} [Arithmetic α] (s : List Char) (p : Point α) :
    (evaluate s p).map (·.value) = match (readSum nestingLimit (tokens s)).map Reading.tree with
      | some a => .ok ((a.map Arithmetic.numeral).eval p)
      | none => .error .nestedTooDeep := by
  unfold evaluate Parsed.ofChars? Parsed.ofCharsWithin?
  cases readSum nestingLimit (tokens s) <;> rfl

theorem sameValues_of_tree {s t : List Char} (h : (readSum nestingLimit (tokens s)).map Reading.tree =
    (readSum nestingLimit (tokens t)).map Reading.tree) : SameValues s t := by
  intro α _ p
  rw [evaluate_value, evaluate_value, h]

theorem SameValues.eval_eq {α : Type} [Arithmetic α] {s t : List Char} (h : SameValues s t) (p : Point α) :
    (readSum nestingLimit (tokens s)).map (fun r => (r.tree.map Arithmetic.numeral).eval p) =
      (readSum nestingLimit (tokens t)).map fun r => (r.tree.map Arithmetic.numeral).eval p := by
  have hvalues := h α p
  rw [evaluate_value, evaluate_value] at hvalues
  cases hs : readSum nestingLimit (tokens s) with
  | none =>
    rw [hs] at hvalues
    cases ht : readSum nestingLimit (tokens t) with
    | none => rfl
    | some r =>
      rw [ht] at hvalues
      cases hvalues
  | some r =>
    rw [hs] at hvalues
    cases ht : readSum nestingLimit (tokens t) with
    | none =>
      rw [ht] at hvalues
      cases hvalues
    | some r' =>
      rw [ht] at hvalues
      exact congrArg some (Except.ok.inj hvalues)

theorem SameValues.weight {s t : List Char} (h : SameValues s t) :
    (readSum nestingLimit (tokens s)).map (·.tree.weight) =
      (readSum nestingLimit (tokens t)).map (·.tree.weight) := by
  let := counting
  exact h.eval_eq ⟨0, 0, 0⟩

/-- What is left behind the closing bracket begins with an operator where the text leaves one over. -/
theorem Reading.Matches.leavesOperator_iff {r r' : Reading} (h : r.Matches r') (issue : Issue) :
    r.LeavesOperator ↔ ∃ m, headMark? (r'.close issue).rest = some m ∧ m.isOperator = true := by
  have hrest := h.rest.afterClosing
  rw [Reading.close_rest]
  have hmark (m : Mark) (hop : m.isOperator = true) :=
    hrest.headMark?_eq (m := m) (by rintro rfl; cases hop)
  exact ⟨fun ⟨m, hm, hop⟩ => ⟨m, (hmark m hop).mp hm, hop⟩, fun ⟨m, hm, hop⟩ => ⟨m, (hmark m hop).mpr hm, hop⟩⟩

section

variable {n : Nat} {s : List Char} {r : Reading}

theorem readSum_enclosed_of_none (h : readSum n (tokens s) = none) :
    readSum (n + 1) (tokens (enclosed s)) = none := by
  obtain ⟨us, htokens, halike⟩ := tokens_enclosed s
  have htree := halike.readSum_tree n
  rw [h, Option.map_none] at htree
  rw [htokens, readSum_opening, Option.map_eq_none_iff.mp htree.symm, Option.bind_none]

/-- The brackets are an operand with the tree of the text, and the reading goes on behind them. -/
theorem readSum_enclosed_of_some (h : readSum n (tokens s) = some r) :
    ∃ r' : Reading, readSum (n + 1) (tokens (enclosed s)) = r'.goOn (readSum n) ∧ r'.tree = r.tree ∧
      (r.LeavesOperator ↔ ∃ m, headMark? r'.rest = some m ∧ m.isOperator = true) := by
  obtain ⟨us, htokens, halike⟩ := tokens_enclosed s
  obtain ⟨r', hr', hmatches⟩ := readSum_imitated le_rfl halike h
  refine ⟨r'.close (.unmatched 0), ?_, ?_, hmatches.leavesOperator_iff (.unmatched 0)⟩
  · rw [htokens, readSum_opening, hr', Option.bind_some]
  · rw [Reading.close_tree, hmatches.tree]

/-- In brackets a text has the tree that it has within one level less, unless an operator is left over. -/
theorem readSum_enclosed_tree (h : readSum n (tokens s) = some r) (hr : ¬r.LeavesOperator) :
    (readSum (n + 1) (tokens (enclosed s))).map Reading.tree = some r.tree := by
  obtain ⟨r', henclosed, htree, hleaves⟩ := readSum_enclosed_of_some h
  have hend : ∀ m, headMark? r'.rest = some m → m.isOperator = false := by
    intro m hm
    by_contra hop
    exact hr (hleaves.mpr ⟨m, hm, Bool.not_eq_false _ ▸ hop⟩)
  rw [henclosed, Reading.goOn_of_no_operator hend, Option.map_some, htree]

theorem readSum_enclosed_weight_lt {r' : Reading} (h : readSum n (tokens s) = some r) (hr : r.LeavesOperator)
    (henclosed : readSum (n + 1) (tokens (enclosed s)) = some r') : r.tree.weight < r'.tree.weight := by
  obtain ⟨r'', hgoOn, htree, hleaves⟩ := readSum_enclosed_of_some h
  obtain ⟨m, hm, hop⟩ := hleaves.mp hr
  exact htree ▸ Reading.goOn_weight_lt hm hop (hgoOn.symm.trans henclosed)

end

/-- A text in brackets has the values of the text itself where the text cannot be evaluated at all, or where it
can be within one level less and its reading leaves no operator over. -/
theorem enclosed_sameValues_iff (s : List Char) : SameValues (enclosed s) s ↔
    readSum nestingLimit (tokens s) = none ∨
      ∃ r, readSum (nestingLimit - 1) (tokens s) = some r ∧ ¬r.LeavesOperator := by
  cases hs : readSum (nestingLimit - 1) (tokens s) with
  | none =>
    -- One level less is not enough, so the brackets are nested too deeply.
    have henclosed : readSum nestingLimit (tokens (enclosed s)) = none := readSum_enclosed_of_none hs
    simp only [reduceCtorEq, false_and, exists_false, or_false]
    constructor
    · intro h
      have hweight := h.weight
      rw [henclosed] at hweight
      exact Option.map_eq_none_iff.mp hweight.symm
    · intro h
      exact sameValues_of_tree (by rw [henclosed, h])
  | some r =>
    obtain ⟨r', hr', hmatches⟩ := readSum_imitated (Nat.sub_le nestingLimit 1) (Alike.refl _) hs
    simp only [hr', reduceCtorEq, false_or, Option.some.injEq, exists_eq_left']
    constructor
    · intro h hleaves
      -- With the operator that was left over, the tree in brackets is larger.
      have hweight := h.weight
      rw [hr'] at hweight
      obtain ⟨grown, hgrown, heq⟩ := Option.map_eq_some_iff.mp hweight
      have hlt := readSum_enclosed_weight_lt hs hleaves hgrown
      exact absurd (heq.trans (congrArg Tree.weight hmatches.tree.symm)) hlt.ne'
    · intro hleaves
      have htree : (readSum nestingLimit (tokens (enclosed s))).map Reading.tree = some r.tree :=
        readSum_enclosed_tree hs hleaves
      exact sameValues_of_tree (by rw [htree, hr', Option.map_some, hmatches.tree])

/-- The power is taken twice in brackets: 16 for the 4 that the text has without them. -/
theorem chained_power_resumed :
    (evaluate "2^2^2".toList (⟨0.0, 0.0, 0.0⟩ : Point Float)).map (·.value) = .ok 4.0 ∧
    (evaluate (enclosed "2^2^2".toList) (⟨0.0, 0.0, 0.0⟩ : Point Float)).map (·.value) = .ok 16.0 ∧
    (4.0 : Float) ≠ 16.0 := by
  decide +kernel

/-! ### Closing brackets behind a text -/

theorem lexemes_closing (k : Nat) :
    lexemes (List.replicate k ')') = List.replicate k (.mark .closing) := by
  induction k with
  | zero => exact lexemes_nil
  | succ k ih => rw [List.replicate_succ, List.replicate_succ, lexemes_cons_mark rfl, ih]

theorem tokens_append_closing (s : List Char) (k : Nat) :
    Alike (tokens s) (tokens (s ++ List.replicate k ')')) := by
  have hlexemes : lexemes (s ++ List.replicate k ')') = lexemes s ++ List.replicate k (.mark .closing) := by
    cases k with
    | zero => simp
    | succ k =>
      rw [List.replicate_succ, List.replicate_succ, ← lexemes_closing k]
      exact lexemes_append_mark s .closing (List.replicate k ')')
  exact Alike.append_closers (List.replicate k ⟨.mark .closing, 0⟩) (by simpa [lexemes] using hlexemes) fun t ht => by
    rw [List.eq_of_mem_replicate ht]

/-- Closing brackets behind a text change neither its value nor whether it has one. -/
theorem evaluate_append_closing {α : Type} [Arithmetic α] (s : List Char) (k : Nat) (p : Point α) :
    (evaluate (s ++ List.replicate k ')') p).map (·.value) = (evaluate s p).map (·.value) :=
  sameValues_of_tree ((tokens_append_closing s k).readSum_tree nestingLimit).symm α p

end FieldPlot.Expression
