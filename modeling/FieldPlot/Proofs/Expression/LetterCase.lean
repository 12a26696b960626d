import FieldPlot.Proofs.Expression.Enclosed
import FieldPlot.Proofs.Expression.Lexemes
import Mathlib.Data.List.TakeWhile

/-! Letter case in expressions. To scan a text in lower case is to put the letters of its tokens into lower case, and
each reader commutes with that, so that a text is read as one tree whatever the case of its letters. -/

namespace FieldPlot.Expression

/-! ### Characters -/

/-- What does not tell a small letter from its capital does not tell a character from its lower case. -/
theorem toLower_congr {β : Type} (f : Char → β)
    (h : ∀ i : Fin 26, f (Char.ofNat (97 + i)) = f (Char.ofNat (65 + i))) (c : Char) : f c.toLower = f c := by
  by_cases hupper : c.val ≥ 'A'.val ∧ c.val ≤ 'Z'.val
  · have hbounds : 65 ≤ c.toNat ∧ c.toNat ≤ 90 := hupper
    obtain ⟨i, hi⟩ : ∃ i : Fin 26, c = Char.ofNat (65 + i) := by
      refine ⟨⟨c.toNat - 65, by omega⟩, ?_⟩
      rw [Nat.add_sub_cancel' hbounds.1, Char.ofNat_toNat]
    have hlower : ∀ i : Fin 26, (Char.ofNat (65 + i)).toLower = Char.ofNat (97 + i) := by decide
    rw [hi, hlower, h]
  · have hsame : c.toLower = c := dif_neg hupper
    rw [hsame]

theorem toLower_toLower (c : Char) : c.toLower.toLower = c.toLower :=
  toLower_congr Char.toLower (by decide) c

theorem ofChar?_toLower (c : Char) : Mark.ofChar? c.toLower = Mark.ofChar? c :=
  toLower_congr Mark.ofChar? (by decide) c

theorem isNumberChar_toLower (c : Char) : isNumberChar c.toLower = isNumberChar c :=
  toLower_congr isNumberChar (by decide) c

theorem isAlpha_toLower (c : Char) : c.toLower.isAlpha = c.isAlpha :=
  toLower_congr Char.isAlpha (by decide) c

theorem isAlphanum_toLower (c : Char) : c.toLower.isAlphanum = c.isAlphanum :=
  toLower_congr Char.isAlphanum (by decide) c

theorem map_toLower_toLower (s : List Char) : (s.map Char.toLower).map Char.toLower = s.map Char.toLower := by
  rw [List.map_map]
  exact List.map_congr_left fun c _ => toLower_toLower c

section

variable {p : Char → Bool} (hp : ∀ c, p c.toLower = p c)

include hp

theorem takeWhile_toLower (s : List Char) : (s.map Char.toLower).takeWhile p = (s.takeWhile p).map Char.toLower := by
  rw [List.takeWhile_map, show p ∘ Char.toLower = p from funext hp]

theorem dropWhile_toLower (s : List Char) : (s.map Char.toLower).dropWhile p = (s.dropWhile p).map Char.toLower := by
  rw [List.dropWhile_map, show p ∘ Char.toLower = p from funext hp]

end

theorem standsAlone_toLower (v : Char) (b : Bool) (s : List Char) :
    standsAlone v b (s.map Char.toLower) = standsAlone v b s := by
  have hhead (s : List Char) : (s.map Char.toLower).head?.any Char.isAlpha = s.head?.any Char.isAlpha := by
    cases s with
    | nil => rfl
    | cons c s => exact isAlpha_toLower c
  induction s generalizing b with
  | nil => rfl
  | cons c s ih => rw [List.map_cons, standsAlone, standsAlone, ih, hhead, toLower_toLower, isAlpha_toLower]

theorem standsAlone_of_toLower {s t : List Char} (h : s.map Char.toLower = t.map Char.toLower) (v : Char) (b : Bool) :
    standsAlone v b s = standsAlone v b t := by
  rw [← standsAlone_toLower, h, standsAlone_toLower]

/-! ### Tokens -/

/-- The lexeme with the letters of a name in lower case. -/
def Lexeme.lowered : Lexeme → Lexeme
  | name s => name (s.map Char.toLower)
  | l => l

def Token.lowered (t : Token) : Token :=
  ⟨t.lexeme.lowered, t.start⟩

theorem Token.lowered_mark (m : Mark) (n : Nat) : Token.lowered ⟨.mark m, n⟩ = ⟨.mark m, n⟩ := rfl

theorem toLower_of_isNumberChar {c : Char} (h : isNumberChar c = true) : c.toLower = c := by
  have hbounds := number_bounds h
  refine dif_neg fun hupper => ?_
  have hletter : 65 ≤ c.toNat := hupper.1
  omega

theorem tokensFrom_toLower (k : Nat) (s : List Char) :
    tokensFrom k (s.map Char.toLower) = (tokensFrom k s).map Token.lowered := by
  fun_induction tokensFrom k s with
  | case1 k => simp [tokensFrom]
  | case2 k c s m hm ih => simp [tokensFrom, ofChar?_toLower, hm, ih, Token.lowered, Lexeme.lowered]
  | case3 k c s hm hc run ih =>
    have hrun : (s.takeWhile isNumberChar).map Char.toLower = s.takeWhile isNumberChar :=
      (List.map_congr_left fun d hd => toLower_of_isNumberChar (List.mem_takeWhile_imp hd)).trans (List.map_id _)
    rw [List.map_cons, tokensFrom]
    simp only [hm, hc, if_true, takeWhile_toLower isNumberChar_toLower, dropWhile_toLower isNumberChar_toLower,
      toLower_of_isNumberChar hc, hrun]
    exact congrArg (_ :: ·) ih
  | case4 k c s hm hc ha run ih =>
    rw [List.map_cons, tokensFrom]
    simp only [ofChar?_toLower, hm, isNumberChar_toLower, hc, isAlpha_toLower, ha, if_true, Bool.false_eq_true,
      if_false, takeWhile_toLower isAlphanum_toLower, dropWhile_toLower isAlphanum_toLower, List.length_map]
    exact congrArg (_ :: ·) ih
  | case5 k c s hm hc ha ih =>
    rw [List.map_cons, tokensFrom]
    simp only [ofChar?_toLower, hm, isNumberChar_toLower, hc, isAlpha_toLower, ha, ih, Bool.false_eq_true, if_false]

theorem tokens_toLower (s : List Char) : tokens (s.map Char.toLower) = (tokens s).map Token.lowered :=
  tokensFrom_toLower 0 s

/-! ### Readers -/

/-- The issue with the letters of a name that it quotes in lower case. -/
def Issue.lowered : Issue → Issue
  | unknownName s n => unknownName (s.map Char.toLower) n
  | unknownFunction s n => unknownFunction (s.map Char.toLower) n
  | unmatchedCall s n => unmatchedCall (s.map Char.toLower) n
  | unexpected s n => unexpected (s.map Char.toLower) n
  | issue => issue

def Reading.lowered (r : Reading) : Reading :=
  ⟨r.tree, r.issues.map Issue.lowered, r.rest.map Token.lowered⟩

theorem headMark?_lowered (ts : List Token) : headMark? (ts.map Token.lowered) = headMark? ts := by
  match ts with
  | [] | ⟨.mark _, _⟩ :: _ | ⟨.number _, _⟩ :: _ | ⟨.name _, _⟩ :: _ => rfl

namespace Reading

theorem close_lowered (issue : Issue) (r : Reading) : (r.close issue).lowered = r.lowered.close issue.lowered := by
  by_cases hm : headMark? r.rest = some .closing
  · have hm' : headMark? r.lowered.rest = some .closing := (headMark?_lowered _).trans hm
    rw [close, if_pos hm, close, if_pos hm']
    simp only [lowered, List.map_drop]
  · have hm' : headMark? r.lowered.rest ≠ some .closing := (headMark?_lowered _).trans_ne hm
    rw [close, if_neg hm, close, if_neg hm']
    simp only [lowered, List.map_append, List.map_cons, List.map_nil]

theorem knownCall_lowered (f : Option Function) (name : List Char) (start : Nat) (tree : Function → Tree Numeral)
    (r : Reading) : (r.knownCall f name start tree).lowered =
      r.lowered.knownCall f (name.map Char.toLower) start tree := by
  cases f with
  | some f => rfl
  | none => simp only [knownCall, lowered, List.map_append, List.map_cons, List.map_nil, Issue.lowered]

theorem join_lowered (op : Binary) (r s : Reading) : (r.join op s).lowered = r.lowered.join op s.lowered := by
  simp only [join, lowered, List.map_append]

end Reading

/-- What is read of tokens in lower case is what is read of the tokens, in lower case. -/
def IgnoresCase (read : Reader) : Prop :=
  ∀ ts, read (ts.map Token.lowered) = (read ts).map Reading.lowered

section

variable {inner operand : Reader} {op? : Mark → Option Binary}

theorem readCall_lowered (hi : IgnoresCase inner) (name : List Char) (start : Nat) (ts : List Token) :
    readCall inner (name.map Char.toLower) start (ts.map Token.lowered) =
      (readCall inner name start ts).map Reading.lowered := by
  have hinner := hi ts
  cases hf : inner ts with
  | none =>
    rw [hf] at hinner
    rw [readCall_none hf, readCall_none hinner]
    rfl
  | some first =>
    rw [hf] at hinner
    by_cases hc : headMark? first.rest = some .comma
    · obtain ⟨n, us, hr⟩ := headMark?_eq_some.mp hc
      have hr' : first.lowered.rest = ⟨.mark .comma, n⟩ :: us.map Token.lowered := congrArg (List.map _) hr
      rw [readCall_two hf hr, readCall_two hinner hr', hi us, map_toLower_toLower, Option.map_map, Option.map_map]
      refine congrArg (Option.map · _) (funext fun second => ?_)
      rw [Function.comp_apply, Function.comp_apply, Reading.knownCall_lowered, Reading.close_lowered]
      simp only [Reading.lowered, Issue.lowered, List.map_append]
    · have hc' : headMark? first.lowered.rest ≠ some .comma := (headMark?_lowered _).trans_ne hc
      rw [readCall_one hf hc, readCall_one hinner hc', map_toLower_toLower, Option.map_some,
        Reading.knownCall_lowered, Reading.close_lowered]
      rfl

theorem readOperand_lowered (hi : IgnoresCase inner) : IgnoresCase (readOperand inner) := by
  intro ts
  match ts with
  | [] => rfl
  | ⟨.mark m, i⟩ :: ts =>
    by_cases hm : m = .opening
    · subst hm
      have hgroup (ts : List Token) : readOperand inner (⟨.mark .opening, i⟩ :: ts) =
          (inner ts).map (Reading.close (.unmatched i)) := rfl
      rw [hgroup, List.map_cons, Token.lowered_mark, hgroup, hi ts, Option.map_map, Option.map_map]
      exact congrArg (Option.map · _) (funext fun r => (Reading.close_lowered (.unmatched i) r).symm)
    · rw [readOperand_mark hm]
      exact readOperand_mark hm
  | ⟨.number s, i⟩ :: ts =>
    simp only [List.map_cons, Token.lowered, Lexeme.lowered, readOperand]
    cases Numeral.ofChars? s <;> rfl
  | ⟨.name s, i⟩ :: ts =>
    simp only [List.map_cons, Token.lowered, Lexeme.lowered, readOperand, map_toLower_toLower]
    cases Tree.ofName? (s.map Char.toLower) with
    | some a => rfl
    | none =>
      dsimp only
      rw [headMark?_lowered]
      split
      · rw [← List.map_drop]
        exact readCall_lowered hi s i (ts.drop 1)
      · rfl

theorem readSigned_lowered (hi : IgnoresCase inner) : IgnoresCase (readSigned inner) := by
  intro ts
  have ho := readOperand_lowered hi
  by_cases hm : headMark? ts = some .minus
  · obtain ⟨i, ts, rfl⟩ := headMark?_eq_some.mp hm
    rw [List.map_cons, Token.lowered_mark, readSigned_minus, readSigned_minus, ho ts, Option.map_map,
      Option.map_map]
    rfl
  · by_cases hp : headMark? ts = some .plus
    · obtain ⟨i, ts, rfl⟩ := headMark?_eq_some.mp hp
      exact ho ts
    · have hm' := (headMark?_lowered ts).trans_ne hm
      have hp' := (headMark?_lowered ts).trans_ne hp
      rw [readSigned_unsigned hm hp, readSigned_unsigned hm' hp', ho ts]

theorem readPower_lowered (hi : IgnoresCase inner) : IgnoresCase (readPower inner) := by
  intro ts
  have hs := readSigned_lowered hi
  have hsigned := hs ts
  cases hb : readSigned inner ts with
  | none =>
    rw [hb] at hsigned
    rw [readPower_none hb, readPower_none hsigned]
    rfl
  | some base =>
    rw [hb] at hsigned
    by_cases hm : headMark? base.rest = some .power
    · obtain ⟨i, us, hr⟩ := headMark?_eq_some.mp hm
      have hr' : base.lowered.rest = ⟨.mark .power, i⟩ :: us.map Token.lowered := congrArg (List.map _) hr
      rw [readPower_raised hb hr, readPower_raised hsigned hr', hs us, Option.map_map, Option.map_map]
      exact congrArg (Option.map · _) (funext fun r => (Reading.join_lowered .pow base r).symm)
    · have hm' : headMark? base.lowered.rest ≠ some .power := (headMark?_lowered _).trans_ne hm
      rw [readPower_base hb hm, readPower_base hsigned hm']
      rfl

theorem readChain_lowered (ho : IgnoresCase operand) (fuel : Nat) (r : Reading) :
    readChain operand op? fuel r.lowered = (readChain operand op? fuel r).map Reading.lowered := by
  induction fuel generalizing r with
  | zero => rfl
  | succ fuel ih =>
    have hhead : headMark? r.lowered.rest = headMark? r.rest := headMark?_lowered _
    cases hop : (headMark? r.rest).bind op? with
    | none =>
      rw [readChain_end _ hop, readChain_end _ (hhead ▸ hop)]
      rfl
    | some op =>
      obtain ⟨m, hm, hop⟩ := Option.bind_eq_some_iff.mp hop
      obtain ⟨i, us, hr⟩ := headMark?_eq_some.mp hm
      have hr' : r.lowered.rest = ⟨.mark m, i⟩ :: us.map Token.lowered := congrArg (List.map _) hr
      rw [readChain_step hr hop, readChain_step hr' hop, ho us]
      cases operand us with
      | none => rfl
      | some s =>
        rw [Option.map_some, Option.bind_some, Option.bind_some, ← Reading.join_lowered, ih]

theorem readOperands_lowered (ho : IgnoresCase operand) : IgnoresCase (readOperands operand op?) := by
  intro ts
  have hoperand := ho ts
  cases hfirst : operand ts with
  | none =>
    rw [hfirst] at hoperand
    rw [readOperands_none hfirst, readOperands_none hoperand]
    rfl
  | some first =>
    rw [hfirst] at hoperand
    have hlength : first.lowered.rest.length = first.rest.length := List.length_map _
    rw [readOperands_some hfirst, readOperands_some hoperand, hlength, readChain_lowered ho]

end

theorem readSum_lowered (levels : Nat) : IgnoresCase (readSum levels) := by
  induction levels with
  | zero => exact fun _ => rfl
  | succ levels ih => exact readOperands_lowered (readOperands_lowered (readPower_lowered ih))

/-! ### Values -/

theorem readSum_toLower (levels : Nat) (s : List Char) :
    readSum levels (tokens (s.map Char.toLower)) = (readSum levels (tokens s)).map Reading.lowered := by
  rw [tokens_toLower, readSum_lowered]

theorem sameValues_toLower (s : List Char) : SameValues (s.map Char.toLower) s := by
  refine sameValues_of_tree ?_
  rw [readSum_toLower, Option.map_map]
  rfl

theorem ofChars?_eq_none_of_toLower {s t : List Char} (h : s.map Char.toLower = t.map Char.toLower) :
    Parsed.ofChars? s = none ↔ Parsed.ofChars? t = none := by
  have hnone (s : List Char) : Parsed.ofChars? s = none ↔
      readSum nestingLimit (tokens (s.map Char.toLower)) = none := by
    rw [readSum_toLower, Option.map_eq_none_iff]
    exact Option.map_eq_none_iff
  rw [hnone, hnone, h]

/-- Texts that are equal up to the case of their letters have the same values. -/
theorem sameValues_of_toLower {s t : List Char} (h : s.map Char.toLower = t.map Char.toLower) : SameValues s t := by
  intro α _ p
  rw [← sameValues_toLower s α p, h, sameValues_toLower t α p]

end FieldPlot.Expression
