import FieldPlot.Proofs.Expression.ClosingBrackets
import FieldPlot.Proofs.Expression.Rules

/-! The brackets that are open while a text is read. One pass over its lexemes that keeps them on a stack goes the
way of the readers, so that the text can be read within a nesting limit exactly if the stack stays below it. -/

namespace FieldPlot.Expression

/-! ### The pass -/

/-- Where a pass stands: at an operand, behind its sign, behind a name that may be called, or behind the operand.
Only the base of a power can be raised. -/
inductive Stage
  | start (base : Bool)
  | signed (base : Bool)
  | named (base : Bool)
  | ended (base : Bool)
deriving DecidableEq

/-- A bracket that is open: whether what it encloses can be raised, and whether it takes a comma. -/
structure Bracket where
  base : Bool
  takesComma : Bool
deriving DecidableEq

/-- The stage of a pass and the brackets that are open, innermost first. -/
structure Pass where
  stage : Stage
  brackets : List Bracket
deriving DecidableEq

namespace Pass

def first : Pass :=
  ⟨.start true, []⟩

/-- What follows when `l` is taken for an operand, whatever it is. -/
def takeOperand (base : Bool) (bs : List Bracket) : Lexeme → Pass
  | .mark .opening => ⟨.start true, ⟨base, false⟩ :: bs⟩
  | .name s => if (Tree.ofName? (s.map Char.toLower)).isSome then ⟨.ended base, bs⟩ else ⟨.named base, bs⟩
  | _ => ⟨.ended base, bs⟩

/-- What follows behind an operand. A power sign is left to the innermost bracket that can be raised and a comma to
the innermost one that takes it; the brackets inside of it end there. Anything else that goes on with no bracket ends
them all. -/
def goOn? (base : Bool) (bs : List Bracket) : Lexeme → Option Pass
  | .mark .plus | .mark .minus | .mark .times | .mark .divide => some ⟨.start true, bs⟩
  | .mark .power =>
    if base then some ⟨.start false, bs⟩
    else match bs.dropWhile (!·.base) with
      | [] => none
      | _ :: bs => some ⟨.start false, bs⟩
  | .mark .closing =>
    match bs with
    | [] => none
    | b :: bs => some ⟨.ended b.base, bs⟩
  | .mark .comma =>
    match bs.dropWhile (!·.takesComma) with
    | [] => none
    | b :: bs => some ⟨.start true, ⟨b.base, false⟩ :: bs⟩
  | _ => none

/-- The next position behind `l`; none where the reading ends in front of it. -/
def step? (c : Pass) (l : Lexeme) : Option Pass :=
  match c.stage with
  | .start base =>
    if l = .mark .plus ∨ l = .mark .minus then some ⟨.signed base, c.brackets⟩
    else some (takeOperand base c.brackets l)
  | .signed base => some (takeOperand base c.brackets l)
  | .named base =>
    if l = .mark .opening then some ⟨.start true, ⟨base, true⟩ :: c.brackets⟩ else goOn? base c.brackets l
  | .ended base => goOn? base c.brackets l

/-- The most brackets that are open at once from `c` on. -/
def mostOpen (c : Pass) : List Lexeme → Nat
  | [] => c.brackets.length
  | l :: w => max c.brackets.length ((c.step? l).elim 0 fun c => c.mostOpen w)

end Pass

/-- From `c` on, `ts` can be passed with at most `limit` brackets open. -/
def Fits (limit : Nat) (c : Pass) (ts : List Token) : Prop :=
  c.mostOpen (ts.map Token.lexeme) ≤ limit

section

variable {limit : Nat} {c c' : Pass} {bs : List Bracket} {k : Bracket} {base : Bool} {t : Token} {ts : List Token}
  {m : Mark} {i : Nat}

theorem Fits.length_le (h : Fits limit c ts) : c.brackets.length ≤ limit := by
  cases ts with
  | nil => exact h
  | cons t ts => exact (le_max_left _ _).trans h

theorem fits_step (h : c.step? t.lexeme = some c') (hc : c.brackets.length ≤ limit) :
    Fits limit c (t :: ts) ↔ Fits limit c' ts := by
  rw [Fits, List.map_cons, Pass.mostOpen, h, max_le_iff]
  exact and_iff_right hc

theorem fits_stop (h : c.step? t.lexeme = none) : Fits limit c (t :: ts) ↔ c.brackets.length ≤ limit := by
  rw [Fits, List.map_cons, Pass.mostOpen, h, Option.elim_none, Nat.max_zero]

/-- Passes that go on alike fit alike. -/
theorem fits_congr {ts : List Token} (hc : c.brackets.length ≤ limit) (hc' : c'.brackets.length ≤ limit)
    (h : ∀ t us, ts = t :: us → c.step? t.lexeme = c'.step? t.lexeme) : Fits limit c ts ↔ Fits limit c' ts := by
  cases ts with
  | nil => exact iff_of_true hc hc'
  | cons t ts =>
    have hstep := h t ts rfl
    cases hnext : c'.step? t.lexeme with
    | none => exact (fits_stop (hstep.trans hnext)).trans ((iff_of_true hc hc').trans (fits_stop hnext).symm)
    | some d => exact (fits_step (hstep.trans hnext) hc).trans (fits_step hnext hc').symm

/-! ### Readers and passes -/

/-- A reader that is given `ts` at `c` leaves the rest to a pass at `c'`, and has no result where the limit keeps it
from one. -/
def Follows (limit : Nat) (c : Pass) (ts : List Token) (c' : Pass) : Option Reading → Prop
  | none => ¬Fits limit c ts
  | some r => Fits limit c ts ↔ Fits limit c' r.rest

theorem Follows.of_iff {d : Pass} {us : List Token} {x : Option Reading} (h : Fits limit c ts ↔ Fits limit d us)
    (hx : Follows limit d us c' x) : Follows limit c ts c' x := by
  cases x with
  | none => exact mt h.mp hx
  | some r => exact h.trans hx

theorem Follows.bind {d : Pass} {x : Option Reading} {f : Reading → Option Reading} (hx : Follows limit c ts d x)
    (hf : ∀ r, x = some r → Follows limit d r.rest c' (f r)) : Follows limit c ts c' (x.bind f) := by
  cases x with
  | none => exact hx
  | some r => exact (hf r rfl).of_iff hx

theorem Follows.map {d : Pass} {x : Option Reading} {f : Reading → Reading} (hx : Follows limit c ts d x)
    (hf : ∀ r, x = some r → (Fits limit d r.rest ↔ Fits limit c' (f r).rest)) :
    Follows limit c ts c' (x.map f) := by
  cases x with
  | none => exact hx
  | some r => exact Iff.trans hx (hf r rfl)

/-- `inner` reads the sums in the brackets that are opened inside of `bs`. -/
structure Nested (limit : Nat) (bs : List Bracket) (inner : Reader) : Prop where
  length_le : bs.length ≤ limit
  follows : ∀ k ts, Follows limit ⟨.start true, k :: bs⟩ ts ⟨.ended false, k :: bs⟩ (inner ts)
  room : ∀ ts r, inner ts = some r → bs.length < limit
  done : ∀ ts r, inner ts = some r → Done Binary.ofSumMark? r.rest ∧ Done Binary.ofProductMark? r.rest

/-- Where no sum and no product goes on, an unmatched bracket leaves what follows to those around it. -/
theorem goOn?_unmatched (hsum : Binary.ofSumMark? m = none) (hproduct : Binary.ofProductMark? m = none)
    (hclosing : m ≠ .closing) (hcomma : m = .comma → k.takesComma = false) :
    Pass.goOn? false (k :: bs) (.mark m) = Pass.goOn? k.base bs (.mark m) := by
  cases m with
  | plus | minus => cases hsum
  | times | divide => cases hproduct
  | opening => rfl
  | closing => exact absurd rfl hclosing
  | comma => simp [Pass.goOn?, hcomma rfl]
  | power => cases hk : k.base <;> simp [Pass.goOn?, hk]

/-- Behind the sum in a bracket the pass goes on as behind the bracket, closed or not. -/
theorem fits_close (hroom : bs.length < limit) (hsum : Done Binary.ofSumMark? ts)
    (hproduct : Done Binary.ofProductMark? ts) (hcomma : headMark? ts = some .comma → k.takesComma = false) :
    Fits limit ⟨.ended false, k :: bs⟩ ts ↔ Fits limit ⟨.ended k.base, bs⟩ (afterClosing ts) := by
  by_cases hclosing : headMark? ts = some .closing
  · obtain ⟨i, us, rfl⟩ := headMark?_eq_some.mp hclosing
    exact fits_step rfl hroom
  · rw [afterClosing, if_neg hclosing]
    refine fits_congr hroom hroom.le fun t us hts => ?_
    subst hts
    obtain ⟨l, i⟩ := t
    cases l with
    | number | name => rfl
    | mark m =>
      exact goOn?_unmatched hsum hproduct (fun h => hclosing (congrArg some h)) fun h => hcomma (congrArg some h)

section

variable {inner : Reader} (h : Nested limit bs inner)

include h

theorem readCall_follows (base : Bool) (name : List Char) (start : Nat) (ts : List Token) :
    Follows limit ⟨.start true, ⟨base, true⟩ :: bs⟩ ts ⟨.ended base, bs⟩ (readCall inner name start ts) := by
  have hfirst := h.follows ⟨base, true⟩ ts
  cases hf : inner ts with
  | none =>
    rw [readCall_none hf]
    rwa [hf] at hfirst
  | some r =>
    rw [hf] at hfirst
    have hroom := h.room ts r hf
    by_cases hcomma : headMark? r.rest = some .comma
    · obtain ⟨i, us, hr⟩ := headMark?_eq_some.mp hcomma
      have hstep : Fits limit ⟨.ended false, ⟨base, true⟩ :: bs⟩ (⟨.mark .comma, i⟩ :: us) ↔
          Fits limit ⟨.start true, ⟨base, false⟩ :: bs⟩ us := fits_step rfl hroom
      rw [Follows, hr] at hfirst
      rw [readCall_two hf hr]
      refine ((h.follows ⟨base, false⟩ us).of_iff (Iff.trans hfirst hstep)).map fun second hs => ?_
      obtain ⟨hsum, hproduct⟩ := h.done us second hs
      rw [Reading.knownCall_rest, Reading.close_rest]
      exact fits_close hroom hsum hproduct fun _ => rfl
    · obtain ⟨hsum, hproduct⟩ := h.done ts r hf
      rw [readCall_one hf hcomma, Follows, Reading.knownCall_rest, Reading.close_rest]
      exact Iff.trans hfirst (fits_close hroom hsum hproduct fun hc => absurd hc hcomma)

theorem readOperand_follows (base : Bool) (ts : List Token) :
    Follows limit ⟨.signed base, bs⟩ ts ⟨.ended base, bs⟩ (readOperand inner ts) := by
  have hstep {l : Lexeme} {i : Nat} {us : List Token} {c : Pass} (hl : Pass.takeOperand base bs l = c) :
      Fits limit ⟨.signed base, bs⟩ (⟨l, i⟩ :: us) ↔ Fits limit c us :=
    fits_step (congrArg some hl) h.length_le
  match ts with
  | [] => exact Iff.rfl
  | ⟨.mark m, i⟩ :: us =>
    by_cases hm : m = .opening
    · subst hm
      have hopen : Fits limit ⟨.signed base, bs⟩ (⟨.mark .opening, i⟩ :: us) ↔
          Fits limit ⟨.start true, ⟨base, false⟩ :: bs⟩ us := hstep rfl
      refine ((h.follows ⟨base, false⟩ us).of_iff hopen).map fun r hr => ?_
      obtain ⟨hsum, hproduct⟩ := h.done us r hr
      rw [Reading.close_rest]
      exact fits_close (h.room us r hr) hsum hproduct fun _ => rfl
    · rw [readOperand_mark hm]
      exact hstep (by cases m <;> first | rfl | exact absurd rfl hm)
  | ⟨.number s, i⟩ :: us =>
    simp only [readOperand]
    split <;> exact hstep rfl
  | ⟨.name s, i⟩ :: us =>
    simp only [readOperand]
    split
    · next hs => exact hstep (by rw [Pass.takeOperand, hs]; rfl)
    · next hs =>
      have hnamed : Fits limit ⟨.signed base, bs⟩ (⟨.name s, i⟩ :: us) ↔ Fits limit ⟨.named base, bs⟩ us :=
        hstep (by rw [Pass.takeOperand, hs]; rfl)
      split
      · next hm =>
        obtain ⟨j, us, rfl⟩ := headMark?_eq_some.mp hm
        exact (readCall_follows h base s i us).of_iff (hnamed.trans (fits_step rfl h.length_le))
      · next hm =>
        refine hnamed.trans (fits_congr h.length_le h.length_le fun t us hts => if_neg ?_)
        subst hts
        obtain ⟨l, j⟩ := t
        rintro rfl
        exact hm rfl

theorem readSigned_follows (base : Bool) (ts : List Token) :
    Follows limit ⟨.start base, bs⟩ ts ⟨.ended base, bs⟩ (readSigned inner ts) := by
  have hsign {m : Mark} {i : Nat} {us : List Token} (hm : m = .plus ∨ m = .minus) :
      Fits limit ⟨.start base, bs⟩ (⟨.mark m, i⟩ :: us) ↔ Fits limit ⟨.signed base, bs⟩ us :=
    fits_step (if_pos (hm.imp (congrArg _) (congrArg _))) h.length_le
  by_cases hm : headMark? ts = some .minus
  · obtain ⟨i, us, rfl⟩ := headMark?_eq_some.mp hm
    rw [readSigned_minus]
    exact ((readOperand_follows h base us).of_iff (hsign (.inr rfl))).map fun _ _ => Iff.rfl
  · by_cases hp : headMark? ts = some .plus
    · obtain ⟨i, us, rfl⟩ := headMark?_eq_some.mp hp
      exact (readOperand_follows h base us).of_iff (hsign (.inl rfl))
    · have hunsigned : Fits limit ⟨.start base, bs⟩ ts ↔ Fits limit ⟨.signed base, bs⟩ ts := by
        refine fits_congr h.length_le h.length_le fun t us hts => if_neg ?_
        subst hts
        obtain ⟨l, i⟩ := t
        rintro (rfl | rfl)
        · exact hp rfl
        · exact hm rfl
      rw [readSigned_unsigned hm hp]
      exact (readOperand_follows h base ts).of_iff hunsigned

/-- Behind a whole power no power sign is taken. -/
theorem readPower_follows (ts : List Token) :
    Follows limit ⟨.start true, bs⟩ ts ⟨.ended false, bs⟩ (readPower inner ts) := by
  have hbase := readSigned_follows h true ts
  cases hb : readSigned inner ts with
  | none =>
    rw [readPower_none hb]
    rwa [hb] at hbase
  | some r =>
    rw [hb] at hbase
    by_cases hpower : headMark? r.rest = some .power
    · obtain ⟨i, us, hr⟩ := headMark?_eq_some.mp hpower
      have hstep : Fits limit ⟨.ended true, bs⟩ (⟨.mark .power, i⟩ :: us) ↔ Fits limit ⟨.start false, bs⟩ us :=
        fits_step rfl h.length_le
      rw [Follows, hr] at hbase
      rw [readPower_raised hb hr]
      exact ((readSigned_follows h false us).of_iff (Iff.trans hbase hstep)).map fun _ _ => Iff.rfl
    · rw [readPower_base hb hpower]
      refine Iff.trans hbase (fits_congr h.length_le h.length_le fun t us hts => ?_)
      rw [hts] at hpower
      obtain ⟨l, i⟩ := t
      cases l with
      | number | name => rfl
      | mark m => cases m <;> first | rfl | exact absurd rfl hpower

end

/-- Operands that are joined from the left, by operators that always start a new one. -/
theorem readChain_follows {operand : Reader} {op? : Mark → Option Binary} (hbs : bs.length ≤ limit)
    (hop : ∀ m op, op? m = some op → Pass.goOn? false bs (.mark m) = some ⟨.start true, bs⟩)
    (hoperand : ∀ ts, Follows limit ⟨.start true, bs⟩ ts ⟨.ended false, bs⟩ (operand ts)) (fuel : Nat) (r : Reading) :
    Follows limit ⟨.ended false, bs⟩ r.rest ⟨.ended false, bs⟩ (readChain operand op? fuel r) := by
  induction fuel generalizing r with
  | zero => exact Iff.rfl
  | succ fuel ih =>
    cases hnext : (headMark? r.rest).bind op? with
    | none =>
      rw [readChain_end _ hnext]
      exact Iff.rfl
    | some op =>
      obtain ⟨m, hm, hmark⟩ := Option.bind_eq_some_iff.mp hnext
      obtain ⟨i, us, hr⟩ := headMark?_eq_some.mp hm
      have hstep : Fits limit ⟨.ended false, bs⟩ r.rest ↔ Fits limit ⟨.start true, bs⟩ us := by
        rw [hr]
        exact fits_step (hop m op hmark) hbs
      rw [readChain_step hr hmark]
      exact ((hoperand us).of_iff hstep).bind fun s _ => ih (r.join op s)

theorem readOperands_follows {operand : Reader} {op? : Mark → Option Binary} (hbs : bs.length ≤ limit)
    (hop : ∀ m op, op? m = some op → Pass.goOn? false bs (.mark m) = some ⟨.start true, bs⟩)
    (hoperand : ∀ ts, Follows limit ⟨.start true, bs⟩ ts ⟨.ended false, bs⟩ (operand ts)) (ts : List Token) :
    Follows limit ⟨.start true, bs⟩ ts ⟨.ended false, bs⟩ (readOperands operand op? ts) :=
  (hoperand ts).bind fun r _ => readChain_follows hbs hop hoperand r.rest.length r

theorem Nested.readSum_follows {n : Nat} (h : Nested limit bs (readSum n)) (ts : List Token) :
    Follows limit ⟨.start true, bs⟩ ts ⟨.ended false, bs⟩ (readSum (n + 1) ts) := by
  refine readOperands_follows h.length_le (fun m op hop => ?_)
    (readOperands_follows h.length_le (fun m op hop => ?_) (readPower_follows h)) ts
  · rcases mark_of_sum hop with rfl | rfl <;> rfl
  · rcases mark_of_product hop with rfl | rfl <;> rfl

theorem readSum_done {n : Nat} {r : Reading} (h : readSum n ts = some r) :
    Done Binary.ofSumMark? r.rest ∧ Done Binary.ofProductMark? r.rest := by
  obtain ⟨n, rfl, htakes, hend⟩ := readSum_takes n ts r h
  refine ⟨hend, ?_⟩
  cases htakes with
  | summand _ hproduct => exact hproduct
  | sum _ _ _ _ hproduct => exact hproduct

/-- The levels that are left and the brackets that are open make up the limit. -/
theorem nested_readSum (n : Nat) {bs : List Bracket} (hn : n + bs.length = limit) : Nested limit bs (readSum n) := by
  induction n generalizing bs with
  | zero =>
    refine ⟨by omega, fun k ts hfits => ?_, fun _ _ h => (nomatch h), fun _ _ h => (nomatch h)⟩
    have hlength := hfits.length_le
    simp only [List.length_cons] at hlength
    omega
  | succ n ih =>
    refine ⟨by omega, fun k ts => ?_, fun _ _ _ => by omega, fun _ _ h => readSum_done h⟩
    refine (ih ?_).readSum_follows ts
    rw [List.length_cons]
    omega

/-! ### The limit -/

theorem fits_done (hsum : Done Binary.ofSumMark? ts) (hproduct : Done Binary.ofProductMark? ts) :
    Fits limit ⟨.ended false, []⟩ ts := by
  cases ts with
  | nil => exact Nat.zero_le limit
  | cons t ts =>
    refine (fits_stop ?_).mpr (Nat.zero_le limit)
    obtain ⟨l, i⟩ := t
    cases l with
    | number | name => rfl
    | mark m =>
      cases m with
      | plus | minus => cases hsum
      | times | divide => cases hproduct
      | power | opening | closing | comma => rfl

/-- A text is read within a limit exactly if its pass has fewer brackets open at all times. -/
theorem readSum_isSome_iff (limit : Nat) (ts : List Token) :
    (readSum limit ts).isSome = true ↔ Pass.first.mostOpen (ts.map Token.lexeme) < limit := by
  cases limit with
  | zero => simp [readSum]
  | succ limit =>
    have hnested : Nested limit [] (readSum limit) := nested_readSum limit rfl
    have hfollows := hnested.readSum_follows ts
    rw [Nat.lt_succ_iff]
    cases hr : readSum (limit + 1) ts with
    | none =>
      rw [hr] at hfollows
      exact iff_of_false (by simp) hfollows
    | some r =>
      rw [hr] at hfollows
      obtain ⟨hsum, hproduct⟩ := readSum_done hr
      exact iff_of_true rfl (hfollows.mpr (fits_done hsum hproduct))

end

end FieldPlot.Expression
