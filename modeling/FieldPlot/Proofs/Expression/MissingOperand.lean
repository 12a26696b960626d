import FieldPlot.Expression.Double
import FieldPlot.Proofs.Expression.Holes
import FieldPlot.Proofs.Expression.LeftOperand
import FieldPlot.Proofs.Expression.WellFormed

/-! An operand that is missing in front of a closing bracket. It counts as 0, but the bracket that is taken in its
place closes nothing any more: what stands behind it is read as if it stood inside, and `(u+)*(v)` as `(u+0*(v))`. -/

namespace FieldPlot.Expression

/-! ### Trees of the tokens -/

/-- Whatever is written as `w` is read as `a`, and no operand is missing in front of a token. -/
def Settles (w : List Lexeme) (a : Tree Numeral) : Prop :=
  ∀ ts, ts.map Token.lexeme = w → ∃ r, readSum nestingLimit ts = some r ∧ r.tree = a ∧ NoneMissing r.issues

/-- The lexemes of `(w op z op' v`, where `z` may close the bracket. -/
def opened (w : List Lexeme) (op : Binary) (z : List Lexeme) (op' : Binary) (v : List Lexeme) : List Lexeme :=
  .mark .opening :: w ++ .mark op.mark :: (z ++ .mark op'.mark :: v)

section

variable {w v x : List Lexeme} {a b : Tree Numeral} {op op' : Binary} {ts : List Token} {m : Mark}

theorem exists_tokens (w : List Lexeme) : ∃ ts : List Token, ts.map Token.lexeme = w :=
  ⟨w.map (⟨·, 0⟩), by simp [Function.comp_def]⟩

theorem Settles.tree (h : Settles w a) (hts : ts.map Token.lexeme = w) :
    (readSum nestingLimit ts).map Reading.tree = some a := by
  obtain ⟨r, hr, rfl, -⟩ := h ts hts
  rw [hr, Option.map_some]

theorem Binary.isOperator_mark (op : Binary) : op.mark.isOperator = true := by
  cases op <;> rfl

/-- With a closing bracket for the 0 the tree is the same. -/
theorem Settles.holed (h : Settles (opened w op [.number ['0']] op' v) a)
    (hts : ts.map Token.lexeme = opened w op [.mark .closing] op' v) :
    (readSum nestingLimit ts).map Reading.tree = some a := by
  obtain ⟨us, hus⟩ := exists_tokens (opened w op [.number ['0']] op' v)
  obtain ⟨r, hr, rfl, hnone⟩ := h us hus
  have hholed : Holed ts us := .of_lexemes op.isOperator_mark hts hus
  exact hholed.readSum_tree hr hnone

theorem Derives.settles (h : Derives .sum w a) (hn : nesting w < nestingLimit) : Settles w a := by
  rintro ts rfl
  exact ⟨_, (h.readSum nestingLimit).trans (if_pos hn), rfl, fun _ _ => List.not_mem_nil⟩

theorem settles_of_unmatched (h : ∀ ts, ts.map Token.lexeme = w → ∃ i rest,
      Takes (nestingLimit - 1) .sum ts ⟨a, [.unmatched i], rest⟩ ∧ Done Binary.ofSumMark? rest) : Settles w a := by
  intro ts hts
  obtain ⟨i, rest, htakes, hend⟩ := h ts hts
  exact ⟨_, readSum_eq_some_iff.mpr ⟨htakes, hend⟩, rfl, fun _ _ h => nomatch List.mem_singleton.mp h⟩

/-- A bracket that is opened in front of a sum and never closed changes nothing about it. -/
theorem Derives.settles_opened (h : Derives .sum w a) (hn : nesting w ≤ nestingLimit - 2) :
    Settles (.mark .opening :: w) a := by
  refine settles_of_unmatched fun ts hts => ?_
  obtain ⟨⟨_, i⟩, ts, rfl, rfl, hw⟩ := List.map_eq_cons_iff.mp hts
  have hgroup : Takes (nestingLimit - 1) .operand (⟨.mark .opening, i⟩ :: ts) ⟨a, [.unmatched i], []⟩ :=
    .group (h.takes_all hw hn) rfl
  exact ⟨i, [], .summand (.factor (.base (.unsigned (by simp) (by simp) hgroup) nofun)) rfl, rfl⟩

/-- The bracket around what is firm ends at the power sign, without being closed. -/
theorem Firm.grouped (h : Firm (nestingLimit - 2) .sum w a)
    (hts : ts.map Token.lexeme = .mark .opening :: w ++ .mark .power :: x) :
    ∃ i j rest, rest.map Token.lexeme = x ∧
      Takes (nestingLimit - 1) .signed ts ⟨a, [.unmatched i], ⟨.mark .power, j⟩ :: rest⟩ := by
  obtain ⟨us, vs, rfl, hus, hvs⟩ := List.map_eq_append_iff.mp hts
  obtain ⟨⟨_, i⟩, us, rfl, rfl, hw⟩ := List.map_eq_cons_iff.mp hus
  obtain ⟨⟨_, j⟩, rest, rfl, rfl, hrest⟩ := List.map_eq_cons_iff.mp hvs
  exact ⟨i, j, rest, hrest, .unsigned (by simp) (by simp) (.group (h us j rest hw) rfl)⟩

theorem Firm.settles_power (h : Firm (nestingLimit - 2) .sum w a) (h' : Derives .operand v b)
    (hv : nesting v ≤ nestingLimit - 1) : Settles (.mark .opening :: w ++ .mark .power :: v) (.binary .pow a b) := by
  refine settles_of_unmatched fun ts hts => ?_
  obtain ⟨i, j, rest, hrest, hbase⟩ := h.grouped hts
  have hexponent := (Derives.unsigned h').takes_all hrest hv
  exact ⟨i, [], .summand (.factor (.raised hbase rfl hexponent)) rfl, rfl⟩

theorem Firm.raised_zero (h : Firm (nestingLimit - 2) .sum w a)
    (hts : ts.map Token.lexeme = .mark .opening :: w ++ .mark .power :: .number ['0'] :: x) :
    ∃ i rest, rest.map Token.lexeme = x ∧
      Takes (nestingLimit - 1) .power ts ⟨.binary .pow a .zero, [.unmatched i], rest⟩ := by
  obtain ⟨i, j, rest, hrest, hbase⟩ := h.grouped hts
  obtain ⟨⟨_, k⟩, rest, rfl, rfl, hx⟩ := List.map_eq_cons_iff.mp hrest
  have hzero : Takes (nestingLimit - 1) .signed (⟨.number ['0'], k⟩ :: rest) ⟨.zero, [], rest⟩ :=
    .unsigned nofun nofun (.number rfl)
  exact ⟨i, rest, hx, .raised hbase rfl hzero⟩

theorem Firm.settles_end (h : Firm (nestingLimit - 2) .sum w a) (hm : m = .power ∨ m = .closing) :
    Settles (.mark .opening :: w ++ .mark .power :: .number ['0'] :: .mark m :: x) (.binary .pow a .zero) := by
  refine settles_of_unmatched fun ts hts => ?_
  obtain ⟨i, rest, hrest, hpower⟩ := h.raised_zero hts
  obtain ⟨⟨_, j⟩, rest, rfl, rfl, -⟩ := List.map_eq_cons_iff.mp hrest
  rcases hm with rfl | rfl <;> exact ⟨i, _, .summand (.factor hpower) rfl, rfl⟩

theorem Firm.settles_apply (h : Firm (nestingLimit - 2) .sum w a) (hop : op ≠ .pow) (h' : Derives .operand v b)
    (hv : nesting v ≤ nestingLimit - 1) :
    Settles (opened w .pow [.number ['0']] op v) (.binary op (.binary .pow a .zero) b) := by
  refine settles_of_unmatched fun ts hts => ?_
  obtain ⟨i, rest, hrest, hpower⟩ := h.raised_zero hts
  obtain ⟨⟨_, j⟩, vs, rfl, rfl, hvs⟩ := List.map_eq_cons_iff.mp hrest
  have hfactor := (Derives.base (.unsigned h')).takes_all hvs hv
  refine ⟨i, [], ?_, rfl⟩
  cases op with
  | add | sub => exact .sum (.summand (.factor hpower) rfl) rfl rfl (.factor hfactor) rfl
  | mul | div => exact .summand (.product (.factor hpower) rfl rfl hfactor) rfl
  | pow => exact absurd rfl hop

end

/-! ### Texts with a gap -/

/-- The text `(u op s) op' (v)`. -/
def applied (u : List Char) (op : Binary) (s : List Char) (op' : Binary) (v : List Char) : List Char :=
  '(' :: u ++ op.mark.char :: (s ++ ')' :: op'.mark.char :: enclosed v)

/-- The text `u op 0 op' (v)`. -/
def joined (u : List Char) (op op' : Binary) (v : List Char) : List Char :=
  u ++ op.mark.char :: '0' :: op'.mark.char :: enclosed v

theorem lexemes_applied (u : List Char) (op : Binary) (s : List Char) (op' : Binary) (v : List Char) :
    lexemes (applied u op s op' v) =
      opened (lexemes u) op (lexemes s ++ [.mark .closing]) op' (lexemes (enclosed v)) := by
  have hbehind : lexemes (s ++ ')' :: op'.mark.char :: enclosed v) =
      lexemes s ++ .mark .closing :: .mark op'.mark :: lexemes (enclosed v) := by
    rw [← lexemes_cons_mark (Mark.ofChar?_char op'.mark)]
    exact lexemes_append_mark s .closing _
  have hinside := lexemes_append_mark u op.mark (s ++ ')' :: op'.mark.char :: enclosed v)
  rw [applied, List.cons_append, lexemes_cons_mark rfl, hinside, hbehind, opened, List.append_assoc]
  rfl

theorem lexemes_zero : lexemes ['0'] = [.number ['0']] := by
  rw [lexemes_cons_number rfl rfl, List.takeWhile_nil, List.dropWhile_nil, lexemes_nil]

theorem lexemes_joined (u : List Char) (op op' : Binary) (v : List Char) :
    lexemes (joined u op op' v) =
      lexemes u ++ .mark op.mark :: .number ['0'] :: .mark op'.mark :: lexemes (enclosed v) := by
  have hzero := lexemes_append_mark ['0'] op'.mark (enclosed v)
  rw [lexemes_zero] at hzero
  exact (lexemes_append_mark u op.mark _).trans (congrArg (lexemes u ++ .mark op.mark :: ·) hzero)

/-- The arithmetic of the operators that are applied last. -/
@[reducible]
def lastApplied : Arithmetic (Option Binary) where
  numeral _ := none
  pi := none
  euler := none
  neg _ := none
  add _ _ := some .add
  sub _ _ := some .sub
  mul _ _ := some .mul
  div _ _ := some .div
  pow _ _ := some .pow
  sin _ := none
  cos _ := none
  tan _ := none
  asin _ := none
  acos _ := none
  atan _ := none
  atan2 _ _ := none
  sinh _ := none
  cosh _ := none
  tanh _ := none
  exp _ := none
  log _ := none
  log10 _ := none
  sqrt _ := none
  abs _ := none
  floor _ := none
  ceil _ := none
  rounded _ := none
  sign _ := none
  minimum _ _ := none
  maximum _ _ := none
  mod _ _ := none

/-- Texts that have the same values in every arithmetic apply the same operator last. -/
theorem SameValues.root_eq {s t : List Char} {op op' : Binary} {a b a' b' : Tree Numeral} (h : SameValues s t)
    (hs : (readSum nestingLimit (tokens s)).map Reading.tree = some (.binary op a b))
    (ht : (readSum nestingLimit (tokens t)).map Reading.tree = some (.binary op' a' b')) : op = op' := by
  let := lastApplied
  have heval (op : Binary) (a b : Tree Numeral) :
      ((Tree.binary op a b).map Arithmetic.numeral).eval (⟨none, none, none⟩ : Point (Option Binary)) = some op := by
    cases op <;> rfl
  obtain ⟨r, hr, hrtree⟩ := Option.map_eq_some_iff.mp hs
  obtain ⟨r', hr', hrtree'⟩ := Option.map_eq_some_iff.mp ht
  have hvalues := h.eval_eq (⟨none, none, none⟩ : Point (Option Binary))
  rw [hr, hr', Option.map_some, Option.map_some, hrtree, hrtree', heval, heval] at hvalues
  exact Option.some.inj (Option.some.inj hvalues)

/-! ### Both sides of the bracket -/

section

variable {w g : List Lexeme} {a b t : Tree Numeral} {op op' : Binary} (hw : Derives .sum w a)
  (hg : Derives .operand g b) (hnw : nesting w ≤ nestingLimit - 2) (hng : nesting g ≤ nestingLimit - 2)

include hw hg hnw hng

/-- `(w op 0) op' g`, where `g` is an operand. -/
theorem settles_closed (ht : Derives .sum (w ++ [.mark op.mark, .number ['0']]) t) :
    Settles (opened w op [.number ['0'], .mark .closing] op' g) (.binary op' t b) := by
  have hgroup := ht.group
  have hjoined := ((hw.closed.joinOp derives_zero.closed op).bracket.joinOp hg.closed op').nesting
  have happly := (hgroup.left_of_operand op').apply hg
  have hzero : nesting [.number ['0']] = 0 := rfl
  simp only [opened, List.cons_append, List.append_assoc, List.nil_append] at hjoined happly ⊢
  refine happly.settles ?_
  rw [hjoined, hzero]
  have hlimit : nestingLimit = 191 := rfl
  omega

/-- `(w op 0 op' g`, where `g` is an operand and the bracket is never closed. -/
theorem settles_open (ht : Derives .sum (w ++ .mark op.mark :: .number ['0'] :: .mark op'.mark :: g) t) :
    Settles (opened w op [.number ['0']] op' g) t := by
  have hjoined := (hw.closed.joinOp (derives_zero.closed.joinOp hg.closed op') op).nesting
  refine ht.settles_opened (le_of_eq_of_le hjoined ?_)
  exact max_le hnw (max_le (Nat.zero_le _) hng)

/-- Where `w op 0` is a left operand of `op'` as it stands, it does not matter whether the bracket closes. -/
theorem settles_alike (hsame : (op = .pow ∧ op' = .pow) ∨
      ∃ t, Derives op'.left (w ++ [.mark op.mark, .number ['0']]) t) :
    ∃ t, Settles (opened w op [.number ['0']] op' g) t ∧
      Settles (opened w op [.number ['0'], .mark .closing] op' g) t := by
  rcases hsame with ⟨rfl, rfl⟩ | ⟨t, ht⟩
  · rcases hw.raisable hnw with hfirm | ⟨t, ht, hfirm⟩
    · -- `w` ends with an exponent, so its bracket ends in front of `^ 0`, and what follows the 0 is left over.
      exact ⟨_, hfirm.settles_end (.inl rfl), hfirm.settles_end (.inr rfl)⟩
    · have hopen := hfirm.settles_power hg (hng.trans (by decide))
      rw [List.cons_append, List.append_assoc] at hopen
      exact ⟨_, hopen, settles_closed hw hg hnw hng ht⟩
  · have hopen := ht.apply hg
    rw [List.append_assoc] at hopen
    exact ⟨_, settles_open hw hg hnw hng hopen, settles_closed hw hg hnw hng ht.of_left⟩

theorem settles_apart_of_derived (ht : Derives .sum (w ++ [.mark op.mark, .number ['0']]) t)
    (hpow : op' = .pow → op ≠ .pow) (hleft : ¬∃ t, Derives op'.left (w ++ [.mark op.mark, .number ['0']]) t) :
    ∃ root x y root' x' y', root ≠ root' ∧ Settles (opened w op [.number ['0']] op' g) (.binary root x y) ∧
      Settles (opened w op [.number ['0'], .mark .closing] op' g) (.binary root' x' y') := by
  suffices hopen : ∃ root x y, root ≠ op' ∧ Settles (opened w op [.number ['0']] op' g) (.binary root x y) by
    obtain ⟨root, x, y, hroot, hopen⟩ := hopen
    exact ⟨root, x, y, op', _, _, hroot, hopen, settles_closed hw hg hnw hng ht⟩
  have hpower : Derives .power g b := .base (.unsigned hg)
  cases hop : op'.left with
  | sum => exact absurd ⟨t, hop ▸ ht⟩ hleft
  | term =>
    -- Without the bracket `op'` takes the last term of `w op 0` only.
    obtain ⟨root, x, y, hroot, hd⟩ := ht.multiplied hop hpower (hop ▸ hleft)
    rw [List.append_assoc] at hd
    refine ⟨root, x, y, ?_, settles_open hw hg hnw hng hd⟩
    rintro rfl
    exact absurd (hop.symm.trans hroot) (by decide)
  | signed =>
    -- Without the bracket the 0 alone is raised.
    obtain rfl : op' = .pow := by cases op' <;> first | rfl | cases hop
    have hraised : Derives .power ([.number ['0']] ++ .mark .power :: g) (.binary .pow .zero b) :=
      .raised (.unsigned derives_zero) (.unsigned hg)
    obtain ⟨root, x, y, hroot, hd⟩ := hw.extended (hpow rfl) hraised
    exact ⟨root, x, y, hroot, settles_open hw hg hnw hng hd⟩
  | power | operand => cases op' <;> cases hop

theorem settles_apart (hsame : ¬((op = .pow ∧ op' = .pow) ∨
      ∃ t, Derives op'.left (w ++ [.mark op.mark, .number ['0']]) t)) :
    ∃ root x y root' x' y', root ≠ root' ∧ Settles (opened w op [.number ['0']] op' g) (.binary root x y) ∧
      Settles (opened w op [.number ['0'], .mark .closing] op' g) (.binary root' x' y') := by
  obtain ⟨hpow, hleft⟩ := not_or.mp hsame
  have of_derived {t : Tree Numeral} (ht : Derives .sum (w ++ [.mark op.mark, .number ['0']]) t) :=
    settles_apart_of_derived hw hg hnw hng ht (fun he' he => hpow ⟨he, he'⟩) hleft
  by_cases hop : op = .pow
  · subst hop
    rcases hw.raisable hnw with hfirm | ⟨t, ht, -⟩
    · have hop' : op' ≠ .pow := fun he => hpow ⟨rfl, he⟩
      exact ⟨op', _, _, .pow, _, _, hop', hfirm.settles_apply hop' hg (hng.trans (by decide)),
        hfirm.settles_end (.inr rfl)⟩
    · exact of_derived ht
  · obtain ⟨root, x, y, -, ht⟩ := hw.extended hop (.base (.unsigned derives_zero))
    exact of_derived ht

end

section

variable {u v : List Char} {a b : Tree Numeral} (op op' : Binary)

theorem tokens_gap (u v : List Char) : (tokens (applied u op [] op' v)).map Token.lexeme =
    opened (lexemes u) op [.mark .closing] op' (lexemes (enclosed v)) :=
  (lexemes_applied u op [] op' v).trans (by rw [lexemes_nil, List.nil_append])

theorem tokens_zero (u v : List Char) : (tokens (applied u op ['0'] op' v)).map Token.lexeme =
    opened (lexemes u) op [.number ['0'], .mark .closing] op' (lexemes (enclosed v)) :=
  (lexemes_applied u op ['0'] op' v).trans (by rw [lexemes_zero, List.singleton_append])

theorem Settles.tree_enclosed {t : Tree Numeral}
    (h : Settles (opened (lexemes u) op [.number ['0']] op' (lexemes (enclosed v))) t) :
    (readSum nestingLimit (tokens (enclosed (joined u op op' v)))).map Reading.tree = some t := by
  -- The brackets differ from what is opened by the closing bracket at the end.
  obtain ⟨ts, hts⟩ := exists_tokens (opened (lexemes u) op [.number ['0']] op' (lexemes (enclosed v)))
  have halike : Alike ts (tokens (enclosed (joined u op op' v))) := by
    refine .append_closers [⟨.mark .closing, 0⟩] ?_ (by simp [Closers])
    rw [hts]
    exact (lexemes_brackets _).trans (by rw [lexemes_joined]; rfl)
  rw [← halike.readSum_tree nestingLimit, h.tree hts]

end

/-- A missing operand in front of a closing bracket counts as 0, but the bracket goes with it: `(u op) op' (v)` has the
values of `(u op 0 op' (v))`. It has those of `(u op 0) op' (v)` exactly if `u op 0` is a left operand of `op'` without
brackets, or both are powers. -/
theorem applied_gap {u v : List Char} {a b : Tree Numeral} {op op' : Binary}
    (hu : Parsed.ofCharsWithin? (nestingLimit - 1) u = some ⟨a, []⟩)
    (hv : Parsed.ofCharsWithin? (nestingLimit - 2) v = some ⟨b, []⟩) :
    SameValues (applied u op [] op' v) (enclosed (joined u op op' v)) ∧
      (SameValues (applied u op [] op' v) (applied u op ['0'] op' v) ↔
        (op = .pow ∧ op' = .pow) ∨ ∃ t, Derives op'.left (lexemes (u ++ [op.mark.char, '0'])) t) := by
  obtain ⟨hu, hnu⟩ := ofCharsWithin?_clean_iff.mp hu
  obtain ⟨hv, hnv⟩ := ofCharsWithin?_clean_iff.mp hv
  have hgroup : Derives .operand (lexemes (enclosed v)) b := lexemes_brackets v ▸ .group hv
  have hng : nesting (lexemes (enclosed v)) ≤ nestingLimit - 2 := by
    rw [enclosed, lexemes_brackets, hv.closed.bracket.nesting]
    exact hnv
  replace hnu : nesting (lexemes u) ≤ nestingLimit - 2 := Nat.le_of_lt_succ hnu
  rw [lexemes_append_mark, lexemes_zero]
  by_cases hsame : (op = .pow ∧ op' = .pow) ∨ ∃ t, Derives op'.left (lexemes u ++ [.mark op.mark, .number ['0']]) t
  · obtain ⟨t, hopen, hclosed⟩ := settles_alike hu hgroup hnu hng hsame
    have hgap := hopen.holed (tokens_gap op op' u v)
    refine ⟨sameValues_of_tree ?_, iff_of_true (sameValues_of_tree ?_) hsame⟩
    · rw [hgap, hopen.tree_enclosed]
    · rw [hgap, hclosed.tree (tokens_zero op op' u v)]
  · obtain ⟨root, x, y, root', x', y', hne, hopen, hclosed⟩ := settles_apart hu hgroup hnu hng hsame
    have hgap := hopen.holed (tokens_gap op op' u v)
    refine ⟨sameValues_of_tree ?_, iff_of_false (fun hvalues => hne ?_) hsame⟩
    · rw [hgap, hopen.tree_enclosed]
    · exact hvalues.root_eq hgap (hclosed.tree (tokens_zero op op' u v))

theorem applied_gap_difference : SameValues (applied (bracketed 0) .add [] .sub (bracketed 0))
    (applied (bracketed 0) .add ['0'] .sub (bracketed 0)) := by
  have hclean (limit : Nat) (hlimit : 0 < limit) :
      Parsed.ofCharsWithin? limit (bracketed 0) = some ⟨.var .x, []⟩ :=
    ofCharsWithin?_clean_iff.mpr ⟨derives_bracketed 0, by rwa [nesting_bracketed]⟩
  refine (applied_gap (hclean _ (by decide)) (hclean _ (by decide))).2.mpr (.inr ⟨.binary .add (.var .x) .zero, ?_⟩)
  have hsum : Derives Binary.add.left (lexemes (bracketed 0)) (.var .x) := derives_bracketed 0
  rw [lexemes_append_mark, lexemes_zero]
  exact hsum.apply derives_zero

/-- The product is read into the brackets: 1 for `(1+)*(2)`, where `(1+0)*(2)` is 2. -/
theorem closing_bracket_lost :
    (evaluate "1".toList (⟨0.0, 0.0, 0.0⟩ : Point Float)).map (·.issues) = .ok [] ∧
    (evaluate "2".toList (⟨0.0, 0.0, 0.0⟩ : Point Float)).map (·.issues) = .ok [] ∧
    (evaluate (applied "1".toList .add [] .mul "2".toList) (⟨0.0, 0.0, 0.0⟩ : Point Float)).map (·.value) = .ok 1.0 ∧
    (evaluate (applied "1".toList .add ['0'] .mul "2".toList) (⟨0.0, 0.0, 0.0⟩ : Point Float)).map (·.value) =
      .ok 2.0 ∧
    (1.0 : Float) ≠ 2.0 := by
  decide +kernel

end FieldPlot.Expression
