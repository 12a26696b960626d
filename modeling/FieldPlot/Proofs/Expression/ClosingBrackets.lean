import FieldPlot.Proofs.Expression.Lexemes
import FieldPlot.Proofs.Expression.Progress

/-! Closing brackets at the end. Token lists that differ in nothing but how many closing brackets end them are
read as one tree: each reader passes the same tokens in both, until both have only closing brackets left. -/

namespace FieldPlot.Expression

def Closers (ts : List Token) : Prop :=
  ∀ t ∈ ts, t.lexeme = .mark .closing

/-- Lists of the same lexemes, apart from the number of closing brackets at the end. -/
inductive Alike : List Token → List Token → Prop
  | closers {ts us : List Token} (hts : Closers ts) (hus : Closers us) : Alike ts us
  | cons {t u : Token} {ts us : List Token} (h : t.lexeme = u.lexeme) (hrest : Alike ts us) :
    Alike (t :: ts) (u :: us)

/-- What is left of the tokens behind a closing bracket, if there is one. -/
def afterClosing (ts : List Token) : List Token :=
  if headMark? ts = some .closing then ts.drop 1 else ts

theorem headMark?_cons_congr {t u : Token} (h : t.lexeme = u.lexeme) (ts us : List Token) :
    headMark? (t :: ts) = headMark? (u :: us) := by
  obtain ⟨l, n⟩ := t
  obtain ⟨l', n'⟩ := u
  obtain rfl : l = l' := h
  cases l <;> rfl

theorem Closers.drop {ts : List Token} (h : Closers ts) : Closers (ts.drop 1) :=
  fun t ht => h t (List.mem_of_mem_drop ht)

theorem Closers.headMark? {ts : List Token} (h : Closers ts) {m : Mark} (hm : headMark? ts = some m) :
    m = .closing := by
  obtain ⟨n, us, rfl⟩ := headMark?_eq_some.mp hm
  exact Lexeme.mark.inj (h _ List.mem_cons_self)

theorem Closers.afterClosing {ts : List Token} (h : Closers ts) : Closers (afterClosing ts) := by
  unfold Expression.afterClosing
  split
  · exact h.drop
  · exact h

namespace Alike

variable {ts us : List Token} {m : Mark}

theorem symm (h : Alike ts us) : Alike us ts := by
  induction h with
  | closers hts hus => exact .closers hus hts
  | cons h _ ih => exact .cons h.symm ih

theorem append_closers (closers : List Token) (hlexemes : us.map Token.lexeme = ts.map Token.lexeme ++
    closers.map Token.lexeme) (hclosers : Closers closers) : Alike ts us := by
  induction ts generalizing us with
  | nil =>
    refine .closers (fun t ht => nomatch ht) fun u hu => ?_
    obtain ⟨t, ht, htu⟩ := List.mem_map.mp (hlexemes ▸ List.mem_map_of_mem hu)
    exact htu ▸ hclosers t ht
  | cons t ts ih =>
    cases us with
    | nil => cases hlexemes
    | cons u us =>
      obtain ⟨hhead, htail⟩ := List.cons.inj hlexemes
      exact .cons hhead.symm (ih htail)

theorem refl (ts : List Token) : Alike ts ts :=
  append_closers [] (by simp) fun _ ht => nomatch ht

theorem drop (h : Alike ts us) : Alike (ts.drop 1) (us.drop 1) := by
  cases h with
  | closers hts hus => exact .closers hts.drop hus.drop
  | cons _ hrest => exact hrest

/-- A mark that is no closing bracket stands at both heads, and what follows it is alike. -/
theorem mark {n : Nat} {vs : List Token} (h : Alike ts us) (hts : ts = ⟨.mark m, n⟩ :: vs) (hm : m ≠ .closing) :
    ∃ n' vs', us = ⟨.mark m, n'⟩ :: vs' ∧ Alike vs vs' := by
  subst hts
  cases h with
  | closers hts hus => exact absurd (hts.headMark? rfl) hm
  | @cons t u _ _ h hrest =>
    obtain ⟨l, n'⟩ := u
    obtain rfl : .mark m = l := h
    exact ⟨n', _, rfl, hrest⟩

theorem headMark?_eq (h : Alike ts us) (hm : m ≠ .closing) : headMark? ts = some m ↔ headMark? us = some m := by
  cases h with
  | closers hts hus => exact ⟨fun he => absurd (hts.headMark? he) hm, fun he => absurd (hus.headMark? he) hm⟩
  | @cons _ _ ts us h _ => rw [headMark?_cons_congr h ts us]

theorem bind_headMark? {op? : Mark → Option Binary} (h : Alike ts us) (hop : op? .closing = none) :
    (headMark? ts).bind op? = (headMark? us).bind op? := by
  cases h with
  | closers hts hus =>
    have hnone {vs : List Token} (hvs : Closers vs) : (headMark? vs).bind op? = none := by
      cases hm : headMark? vs with
      | none => rfl
      | some m => exact hvs.headMark? hm ▸ hop
    rw [hnone hts, hnone hus]
  | @cons _ _ ts us h _ => rw [headMark?_cons_congr h ts us]

theorem afterClosing (h : Alike ts us) : Alike (afterClosing ts) (afterClosing us) := by
  cases h with
  | closers hts hus => exact .closers hts.afterClosing hus.afterClosing
  | @cons _ _ ts us h hrest =>
    unfold Expression.afterClosing
    rw [headMark?_cons_congr h ts us]
    split
    · exact hrest
    · exact .cons h hrest

end Alike

/-! ### Readings -/

/-- The same tree was read, and what is left differs in closing brackets at the end only. -/
structure Reading.Matches (r s : Reading) : Prop where
  tree : r.tree = s.tree
  rest : Alike r.rest s.rest

/-- What `read` reads is read by `read'` wherever the tokens differ in closing brackets at the end only. -/
def Imitated (read read' : Reader) : Prop :=
  ∀ ⦃ts us r⦄, Alike ts us → read ts = some r → ∃ s, read' us = some s ∧ r.Matches s

theorem Reading.close_rest (issue : Issue) (r : Reading) : (r.close issue).rest = afterClosing r.rest := by
  unfold Reading.close afterClosing
  split <;> rfl

namespace Reading.Matches

variable {r s r' s' : Reading}

theorem close (h : r.Matches s) (issue issue' : Issue) : (r.close issue).Matches (s.close issue') where
  tree := by rw [close_tree, close_tree, h.tree]
  rest := by
    rw [close_rest, close_rest]
    exact h.rest.afterClosing

theorem knownCall (h : r.Matches s) (f : Option Function) (name : List Char) (start start' : Nat)
    {tree tree' : Function → Tree Numeral} (htree : ∀ f, tree f = tree' f) :
    (r.knownCall f name start tree).Matches (s.knownCall f name start' tree') where
  tree := by cases f <;> simp [Reading.knownCall, htree]
  rest := by
    rw [knownCall_rest, knownCall_rest]
    exact h.rest

theorem join (h : r.Matches s) (h' : r'.Matches s') (op : Binary) : (r.join op r').Matches (s.join op s') where
  tree := by rw [Reading.join, Reading.join, h.tree, h'.tree]
  rest := h'.rest

end Reading.Matches

section

variable {inner inner' operand operand' : Reader} {op? : Mark → Option Binary}

theorem readCall_imitated (hi : Imitated inner inner') (name : List Char) (start start' : Nat) :
    Imitated (readCall inner name start) (readCall inner' name start') := by
  intro ts us r halike h
  cases hf : inner ts with
  | none => simp [readCall_none hf] at h
  | some first =>
    obtain ⟨first', hf', hfirst⟩ := hi halike hf
    by_cases hc : headMark? first.rest = some .comma
    · obtain ⟨n, vs, hr⟩ := headMark?_eq_some.mp hc
      obtain ⟨n', vs', hr', hrest⟩ := hfirst.rest.mark hr (by decide)
      rw [readCall_two hf hr] at h
      obtain ⟨second, hs, rfl⟩ := Option.map_eq_some_iff.mp h
      obtain ⟨second', hs', hsecond⟩ := hi hrest hs
      have hboth : Reading.Matches { second with issues := first.issues ++ second.issues }
          { second' with issues := first'.issues ++ second'.issues } := ⟨hsecond.tree, hsecond.rest⟩
      refine ⟨_, by rw [readCall_two hf' hr', hs', Option.map_some],
        (hboth.close _ _).knownCall _ _ _ _ fun f => ?_⟩
      rw [hfirst.tree, hsecond.tree]
    · have hc' : headMark? first'.rest ≠ some .comma := mt (hfirst.rest.headMark?_eq (by decide)).mpr hc
      rw [readCall_one hf hc] at h
      obtain rfl := Option.some.inj h
      refine ⟨_, readCall_one hf' hc', (hfirst.close _ _).knownCall _ _ _ _ fun f => ?_⟩
      rw [hfirst.tree]

/-- Where only closing brackets are left, the operand is missing. -/
theorem readOperand_closers (inner : Reader) {ts : List Token} (h : Closers ts) :
    ∃ r, readOperand inner ts = some r ∧ r.tree = .zero ∧ Closers r.rest := by
  match ts, h with
  | [], h => exact ⟨_, rfl, rfl, h⟩
  | ⟨l, n⟩ :: ts, h =>
    obtain rfl : l = .mark .closing := h _ List.mem_cons_self
    exact ⟨_, rfl, rfl, h.drop⟩

theorem readOperand_imitated (hi : Imitated inner inner') :
    Imitated (readOperand inner) (readOperand inner') := by
  intro ts us r halike h
  cases halike with
  | closers hts hus =>
    obtain ⟨r', hr', htree, hrest⟩ := readOperand_closers inner hts
    obtain rfl := Option.some.inj (hr'.symm.trans h)
    obtain ⟨s, hs, htree', hrest'⟩ := readOperand_closers inner' hus
    exact ⟨s, hs, htree.trans htree'.symm, .closers hrest hrest'⟩
  | @cons t u ts us hlexeme hrest =>
    obtain ⟨l, n⟩ := t
    obtain ⟨l', n'⟩ := u
    obtain rfl : l = l' := hlexeme
    cases l with
    | mark m =>
      by_cases hm : m = .opening
      · subst hm
        obtain ⟨first, hf, rfl⟩ := Option.map_eq_some_iff.mp h
        obtain ⟨first', hf', hfirst⟩ := hi hrest hf
        exact ⟨_, congrArg (Option.map _) hf', hfirst.close _ _⟩
      · rw [readOperand_mark hm] at h
        obtain rfl := Option.some.inj h
        exact ⟨_, readOperand_mark hm, rfl, hrest⟩
    | number s =>
      simp only [readOperand] at h ⊢
      cases hv : Numeral.ofChars? s with
      | none =>
        rw [hv] at h
        obtain rfl := Option.some.inj h
        exact ⟨_, rfl, rfl, hrest⟩
      | some v =>
        rw [hv] at h
        obtain rfl := Option.some.inj h
        exact ⟨_, rfl, rfl, hrest⟩
    | name s =>
      simp only [readOperand] at h ⊢
      cases ha : Tree.ofName? (s.map Char.toLower) with
      | some a =>
        rw [ha] at h
        obtain rfl := Option.some.inj h
        exact ⟨_, rfl, rfl, hrest⟩
      | none =>
        simp only [ha] at h ⊢
        by_cases hm : headMark? ts = some .opening
        · rw [if_pos hm] at h
          rw [if_pos ((hrest.headMark?_eq (by decide)).mp hm)]
          exact readCall_imitated hi s n n' hrest.drop h
        · rw [if_neg hm] at h
          rw [if_neg (mt (hrest.headMark?_eq (by decide)).mpr hm)]
          obtain rfl := Option.some.inj h
          exact ⟨_, rfl, rfl, hrest⟩

theorem readSigned_imitated (hi : Imitated inner inner') :
    Imitated (readSigned inner) (readSigned inner') := by
  intro ts us r halike h
  by_cases hm : headMark? ts = some .minus
  · obtain ⟨n, ts, rfl⟩ := headMark?_eq_some.mp hm
    obtain ⟨n', us, rfl, hrest⟩ := halike.mark rfl (by decide)
    rw [readSigned_minus] at h ⊢
    obtain ⟨r, hr, rfl⟩ := Option.map_eq_some_iff.mp h
    obtain ⟨s, hs, hmatches⟩ := readOperand_imitated hi hrest hr
    exact ⟨_, congrArg (Option.map _) hs, congrArg Tree.negate hmatches.tree, hmatches.rest⟩
  · have hm' := mt (halike.headMark?_eq (by decide)).mpr hm
    by_cases hp : headMark? ts = some .plus
    · obtain ⟨n, ts, rfl⟩ := headMark?_eq_some.mp hp
      obtain ⟨n', us, rfl, hrest⟩ := halike.mark rfl (by decide)
      rw [readSigned_plus] at h ⊢
      exact readOperand_imitated hi hrest h
    · rw [readSigned_unsigned hm hp] at h
      rw [readSigned_unsigned hm' (mt (halike.headMark?_eq (by decide)).mpr hp)]
      exact readOperand_imitated hi halike h

theorem readPower_imitated (hi : Imitated inner inner') :
    Imitated (readPower inner) (readPower inner') := by
  intro ts us r halike h
  cases hb : readSigned inner ts with
  | none => simp [readPower_none hb] at h
  | some base =>
    obtain ⟨base', hb', hbase⟩ := readSigned_imitated hi halike hb
    by_cases hm : headMark? base.rest = some .power
    · obtain ⟨n, vs, hr⟩ := headMark?_eq_some.mp hm
      obtain ⟨n', vs', hr', hrest⟩ := hbase.rest.mark hr (by decide)
      rw [readPower_raised hb hr] at h
      rw [readPower_raised hb' hr']
      obtain ⟨exponent, hx, rfl⟩ := Option.map_eq_some_iff.mp h
      obtain ⟨exponent', hx', hexponent⟩ := readSigned_imitated hi hrest hx
      exact ⟨_, congrArg (Option.map _) hx', hbase.join hexponent .pow⟩
    · rw [readPower_base hb hm] at h
      obtain rfl := Option.some.inj h
      exact ⟨base', readPower_base hb' (mt (hbase.rest.headMark?_eq (by decide)).mpr hm), hbase⟩

/-- Chains end at the same operator, as neither runs out of fuel before it runs out of tokens. -/
theorem readChain_imitated (hop : op? .closing = none) (ho : Imitated operand operand')
    (hf : Forward operand) (hf' : Forward operand') {fuel fuel' : Nat} {r s r' : Reading}
    (hrs : r.Matches s) (hfuel : r.rest.length ≤ fuel) (hfuel' : s.rest.length ≤ fuel')
    (h : readChain operand op? fuel r = some r') :
    ∃ s', readChain operand' op? fuel' s = some s' ∧ r'.Matches s' := by
  induction fuel generalizing fuel' r s with
  | zero =>
    have hend : (headMark? r.rest).bind op? = none := by
      rw [List.length_eq_zero_iff.mp (Nat.le_zero.mp hfuel)]
      rfl
    obtain rfl := Option.some.inj h
    exact ⟨s, readChain_end fuel' (hrs.rest.bind_headMark? hop ▸ hend), hrs⟩
  | succ fuel ih =>
    cases hnext : (headMark? r.rest).bind op? with
    | none =>
      rw [readChain_end _ hnext] at h
      obtain rfl := Option.some.inj h
      exact ⟨s, readChain_end fuel' (hrs.rest.bind_headMark? hop ▸ hnext), hrs⟩
    | some op =>
      obtain ⟨m, hm, hopm⟩ := Option.bind_eq_some_iff.mp hnext
      obtain ⟨n, vs, hr⟩ := headMark?_eq_some.mp hm
      have hclosing : m ≠ .closing := by
        rintro rfl
        exact absurd (hop.symm.trans hopm) (by simp)
      obtain ⟨n', vs', hr', hrest⟩ := hrs.rest.mark hr hclosing
      rw [readChain_step hr hopm] at h
      obtain ⟨second, hs, h⟩ := Option.bind_eq_some_iff.mp h
      obtain ⟨second', hs', hsecond⟩ := ho hrest hs
      rw [hr, List.length_cons] at hfuel
      rw [hr', List.length_cons] at hfuel'
      obtain ⟨fuel', rfl⟩ := Nat.exists_eq_add_of_le' (Nat.one_le_of_lt hfuel')
      have hlength := (hf _ _ hs).length_le
      have hlength' := (hf' _ _ hs').length_le
      rw [readChain_step hr' hopm, hs']
      exact ih (hrs.join hsecond op) (hlength.trans (Nat.le_of_succ_le_succ hfuel))
        (hlength'.trans (Nat.le_of_succ_le_succ hfuel')) h

theorem readOperands_imitated (hop : op? .closing = none) (ho : Imitated operand operand')
    (hf : Forward operand) (hf' : Forward operand') :
    Imitated (readOperands operand op?) (readOperands operand' op?) := by
  intro ts us r halike h
  cases hfirst : operand ts with
  | none => simp [readOperands_none hfirst] at h
  | some first =>
    obtain ⟨first', hfirst', hmatches⟩ := ho halike hfirst
    rw [readOperands_some hfirst] at h
    rw [readOperands_some hfirst']
    exact readChain_imitated hop ho hf hf' hmatches le_rfl le_rfl h

end

/-- More levels change nothing about what is read. -/
theorem readSum_imitated {n m : Nat} (hnm : n ≤ m) : Imitated (readSum n) (readSum m) := by
  induction n generalizing m with
  | zero => exact fun ts us r _ h => nomatch h
  | succ n ih =>
    obtain ⟨m, rfl⟩ := Nat.exists_eq_add_of_le' (Nat.one_le_of_lt hnm)
    have hi := ih (Nat.le_of_succ_le_succ hnm)
    exact readOperands_imitated rfl
      (readOperands_imitated rfl (readPower_imitated hi) (readPower_forward (readSum_forward n))
        (readPower_forward (readSum_forward m)))
      (readOperands_forward (readPower_forward (readSum_forward n)))
      (readOperands_forward (readPower_forward (readSum_forward m)))

theorem Alike.readSum_tree {ts us : List Token} (h : Alike ts us) (n : Nat) :
    (readSum n ts).map Reading.tree = (readSum n us).map Reading.tree := by
  cases hts : readSum n ts with
  | some r =>
    obtain ⟨s, hs, hmatches⟩ := readSum_imitated le_rfl h hts
    rw [hs, Option.map_some, Option.map_some, hmatches.tree]
  | none =>
    cases hus : readSum n us with
    | none => rfl
    | some s =>
      obtain ⟨r, hr, -⟩ := readSum_imitated le_rfl h.symm hus
      exact absurd (hts.symm.trans hr) (by simp)

end FieldPlot.Expression
