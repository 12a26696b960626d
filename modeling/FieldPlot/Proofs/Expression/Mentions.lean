import FieldPlot.Expression.Formula
import FieldPlot.Proofs.Expression.Lexemes
import FieldPlot.Proofs.Expression.Progress
import Mathlib.Data.List.TakeWhile

/-! What an expression mentions. A tree has its variables from tokens that name them, and such a token
stands alone in the text, so that a letter that does not stand alone has no influence on the value. -/

namespace FieldPlot.Expression

def Tree.Mentions {ν : Type} (v : Variable) : Tree ν → Prop
  | literal _ | const _ => False
  | var u => u = v
  | negate a | call _ a => a.Mentions v
  | binary _ a b | callTwo _ a b => a.Mentions v ∨ b.Mentions v

/-- A value depends on the coordinates that the tree mentions. -/
theorem Tree.eval_congr {α : Type} [Arithmetic α] {p q : Point α} {a : Tree α}
    (h : ∀ v, a.Mentions v → v.value p = v.value q) : a.eval p = a.eval q := by
  induction a with
  | literal | const => rfl
  | var v => exact h v rfl
  | negate a ih | call f a ih => simp only [eval, ih h]
  | binary op a b iha ihb | callTwo f a b iha ihb =>
    have ha := iha fun v hv => h v (.inl hv)
    have hb := ihb fun v hv => h v (.inr hv)
    simp only [eval, ha, hb]

theorem Tree.mentions_map {ν μ : Type} (f : ν → μ) {v : Variable} {a : Tree ν} :
    (a.map f).Mentions v ↔ a.Mentions v := by
  induction a with
  | literal | var | const => rfl
  | negate a ih | call g a ih => exact ih
  | binary op a b iha ihb | callTwo g a b iha ihb => exact or_congr iha ihb

theorem Tree.eq_var_of_ofName? {name : List Char} {a : Tree Numeral} {v : Variable}
    (h : ofName? name = some a) (hv : a.Mentions v) : a = .var v := by
  unfold ofName? at h
  split at h <;> cases h <;> cases hv <;> rfl

/-! ### Readers -/

/-- A token that is read as the variable. -/
def Names (v : Variable) (ts : List Token) : Prop :=
  ∃ s n, ⟨.name s, n⟩ ∈ ts ∧ Tree.ofName? (s.map Char.toLower) = some (.var v)

theorem Names.mono {v : Variable} {ts us : List Token} (h : Names v ts) (hs : ts <:+ us) :
    Names v us := by
  obtain ⟨s, n, hmem, hname⟩ := h
  exact ⟨s, n, hs.subset hmem, hname⟩

theorem Names.cons {v : Variable} {t : Token} {ts : List Token} (h : Names v ts) : Names v (t :: ts) :=
  h.mono (List.suffix_cons _ _)

/-- What `read` mentions is named by the tokens it is given. -/
def Faithful (read : Reader) : Prop :=
  ∀ ts r v, read ts = some r → r.tree.Mentions v → Names v ts

theorem Reading.mentions_of_knownCall {f : Option Function} {name : List Char} {start : Nat}
    {tree : Function → Tree Numeral} {r : Reading} {v : Variable}
    (h : (r.knownCall f name start tree).tree.Mentions v) : ∃ g, (tree g).Mentions v := by
  cases f with
  | none => exact h.elim
  | some g => exact ⟨g, h⟩

section

variable {inner operand : Reader} {op? : Mark → Option Binary}

theorem readCall_faithful (hf : Forward inner) (hi : Faithful inner) (name : List Char) (start : Nat) :
    Faithful (readCall inner name start) := by
  intro ts r v h hv
  cases hfirst : inner ts with
  | none => simp [readCall_none hfirst] at h
  | some first =>
    by_cases hc : headMark? first.rest = some .comma
    · obtain ⟨n, us, hr⟩ := headMark?_eq_some.mp hc
      have hus : us <:+ ts := (List.suffix_cons _ _).trans (hr ▸ hf ts first hfirst)
      rw [readCall_two hfirst hr] at h
      obtain ⟨second, hsecond, rfl⟩ := Option.map_eq_some_iff.mp h
      obtain ⟨g, hg | hg⟩ := Reading.mentions_of_knownCall hv
      · exact hi ts first v hfirst hg
      · exact (hi us second v hsecond hg).mono hus
    · rw [readCall_one hfirst hc] at h
      obtain rfl := Option.some.inj h
      obtain ⟨g, hg⟩ := Reading.mentions_of_knownCall hv
      exact hi ts first v hfirst hg

theorem readOperand_faithful (hf : Forward inner) (hi : Faithful inner) :
    Faithful (readOperand inner) := by
  intro ts r v h hv
  cases readOperand_cases h with
  | skipped => exact hv.elim
  | group hfirst =>
    rw [Reading.close_tree] at hv
    exact (hi _ _ v hfirst hv).cons
  | number => exact hv.elim
  | name hname =>
    obtain rfl := Tree.eq_var_of_ofName? hname hv
    exact ⟨_, _, List.mem_cons_self, hname⟩
  | call hcall => exact (readCall_faithful hf hi _ _ _ _ v hcall hv).cons.cons

theorem readSigned_faithful (hf : Forward inner) (hi : Faithful inner) :
    Faithful (readSigned inner) := by
  intro ts r v h hv
  have ho := readOperand_faithful hf hi
  by_cases hm : headMark? ts = some .minus
  · obtain ⟨n, us, rfl⟩ := headMark?_eq_some.mp hm
    rw [readSigned_minus] at h
    obtain ⟨r, hr, rfl⟩ := Option.map_eq_some_iff.mp h
    exact (ho us r v hr hv).cons
  · by_cases hp : headMark? ts = some .plus
    · obtain ⟨n, us, rfl⟩ := headMark?_eq_some.mp hp
      exact (ho us r v h hv).cons
    · rw [readSigned_unsigned hm hp] at h
      exact ho ts r v h hv

theorem readPower_faithful (hf : Forward inner) (hi : Faithful inner) :
    Faithful (readPower inner) := by
  intro ts r v h hv
  have hs := readSigned_faithful hf hi
  cases hb : readSigned inner ts with
  | none => simp [readPower_none hb] at h
  | some base =>
    by_cases hm : headMark? base.rest = some .power
    · obtain ⟨n, us, hr⟩ := headMark?_eq_some.mp hm
      have hus : us <:+ ts := (List.suffix_cons _ _).trans (hr ▸ readSigned_forward hf ts base hb)
      rw [readPower_raised hb hr] at h
      obtain ⟨exponent, hx, rfl⟩ := Option.map_eq_some_iff.mp h
      rcases hv with hv | hv
      · exact hs ts base v hb hv
      · exact (hs us exponent v hx hv).mono hus
    · rw [readPower_base hb hm] at h
      obtain rfl := Option.some.inj h
      exact hs ts _ v hb hv

/-- What a chain adds to its first operand is named by the tokens behind it. -/
theorem readChain_faithful (hf : Forward operand) (ho : Faithful operand) {fuel : Nat} {r r' : Reading}
    {v : Variable} (h : readChain operand op? fuel r = some r') (hv : r'.tree.Mentions v) :
    r.tree.Mentions v ∨ Names v r.rest := by
  induction fuel generalizing r with
  | zero =>
    obtain rfl := Option.some.inj h
    exact .inl hv
  | succ fuel ih =>
    cases hop : (headMark? r.rest).bind op? with
    | none =>
      rw [readChain_end _ hop] at h
      obtain rfl := Option.some.inj h
      exact .inl hv
    | some op =>
      obtain ⟨m, hm, hop⟩ := Option.bind_eq_some_iff.mp hop
      obtain ⟨n, us, hr⟩ := headMark?_eq_some.mp hm
      rw [readChain_step hr hop] at h
      obtain ⟨s, hs, hrest⟩ := Option.bind_eq_some_iff.mp h
      rw [hr]
      rcases ih hrest with (hv | hv) | hv
      · exact .inl hv
      · exact .inr (ho us s v hs hv).cons
      · exact .inr (hv.mono (hf us s hs)).cons

theorem readOperands_faithful (hf : Forward operand) (ho : Faithful operand) :
    Faithful (readOperands operand op?) := by
  intro ts r v h hv
  cases hfirst : operand ts with
  | none => simp [readOperands_none hfirst] at h
  | some first =>
    rw [readOperands_some hfirst] at h
    rcases readChain_faithful hf ho h hv with hv | hv
    · exact ho ts first v hfirst hv
    · exact hv.mono (hf ts first hfirst)

end

theorem readSum_faithful (levels : Nat) : Faithful (readSum levels) := by
  induction levels with
  | zero =>
    intro ts r v h
    simp [readSum] at h
  | succ levels ih =>
    have hf := readSum_forward levels
    exact readOperands_faithful (readOperands_forward (readPower_forward hf))
      (readOperands_faithful (readPower_forward hf) (readPower_faithful hf ih))

/-! ### Texts -/

section

variable {v : Char} {b : Bool} {s : List Char}

/-- Whether the last character of a text behind `b` is a letter. -/
def endsInLetter (b : Bool) (s : List Char) : Bool :=
  s.foldl (fun _ c => c.isAlpha) b

theorem standsAlone_append (xs ys : List Char) (h : standsAlone v (endsInLetter b xs) ys = true) :
    standsAlone v b (xs ++ ys) = true := by
  induction xs generalizing b with
  | nil => exact h
  | cons c xs ih => rw [List.cons_append, standsAlone, ih h, Bool.or_true]

/-- What stands alone behind a run does so in the whole text. -/
theorem standsAlone_dropWhile {c : Char} (p : Char → Bool)
    (h : standsAlone v (endsInLetter c.isAlpha (s.takeWhile p)) (s.dropWhile p) = true) :
    standsAlone v b (c :: s) = true := by
  have hall := standsAlone_append _ _ h
  rw [List.takeWhile_append_dropWhile] at hall
  rw [standsAlone, hall, Bool.or_true]

theorem isAlpha_of_number {c : Char} (h : isNumberChar c = true) : c.isAlpha = false := by
  by_contra ha
  have halpha := alpha_bounds (Bool.not_eq_false _ ▸ ha)
  have hnumber := number_bounds h
  omega

theorem endsInLetter_of_numbers (h : ∀ c ∈ s, isNumberChar c = true) : endsInLetter false s = false := by
  induction s with
  | nil => rfl
  | cons c s ih =>
    have hc := isAlpha_of_number (h c List.mem_cons_self)
    have hrest := ih fun d hd => h d (List.mem_cons_of_mem _ hd)
    rwa [endsInLetter, List.foldl_cons, hc]

theorem isAlphanum_head_dropWhile (s : List Char) :
    (s.dropWhile Char.isAlphanum).head?.any Char.isAlpha = false := by
  have hhead := List.head?_dropWhile_not Char.isAlphanum s
  cases hs : (s.dropWhile Char.isAlphanum).head? with
  | none => rfl
  | some c =>
    rw [hs] at hhead
    exact (Bool.or_eq_false_iff.mp hhead).1

/-- A name of one letter stands alone: it starts behind no letter and is as long as it can be. -/
theorem standsAlone_of_token {start n : Nat} {name : List Char}
    (h : ⟨.name name, n⟩ ∈ tokensFrom start s) (hname : name.map Char.toLower = [v])
    (hb : b = true → s.head?.any Char.isAlpha = false) : standsAlone v b s = true := by
  fun_induction tokensFrom start s generalizing b with
  | case1 => cases h
  | case2 start c s m hm ih =>
    obtain rfl := eq_char_of_ofChar? hm
    have hletter : m.char.isAlpha = false := (Bool.or_eq_false_iff.mp (isAlphanum_mark m)).1
    rcases List.mem_cons.mp h with h | h
    · cases h
    · rw [standsAlone, ih h fun hc => absurd hc (by simp [hletter]), Bool.or_true]
  | case3 start c s hm hc run =>
    rename_i ih
    rcases List.mem_cons.mp h with h | h
    · cases h
    · have hflag : endsInLetter c.isAlpha run = false := by
        rw [isAlpha_of_number hc]
        exact endsInLetter_of_numbers fun d hd => List.mem_takeWhile_imp hd
      exact standsAlone_dropWhile isNumberChar (ih h fun hf => absurd hf (by simp [run, hflag]))
  | case4 start c s hm hc ha run =>
    rename_i ih
    rcases List.mem_cons.mp h with h | h
    · obtain ⟨rfl, -⟩ := Token.mk.inj h |>.imp_left Lexeme.name.inj
      obtain ⟨rfl, hrun⟩ := List.cons.inj hname
      have hnone : run = [] := List.map_eq_nil_iff.mp hrun
      have hdrop := isAlphanum_head_dropWhile s
      have hs : s.dropWhile Char.isAlphanum = s := by
        have hsplit := List.takeWhile_append_dropWhile (p := Char.isAlphanum) (l := s)
        rwa [show s.takeWhile Char.isAlphanum = [] from hnone, List.nil_append] at hsplit
      rw [hs] at hdrop
      have hfree : b = false := by
        by_contra hb'
        have hhead := hb (Bool.not_eq_false _ ▸ hb')
        simp [ha] at hhead
      simp [standsAlone, hfree, hdrop]
    · exact standsAlone_dropWhile Char.isAlphanum (ih h fun _ => isAlphanum_head_dropWhile s)
  | case5 start c s hm hc ha ih =>
    rw [standsAlone, ih h fun hf => absurd hf (by simpa using ha), Bool.or_true]

end

theorem Names.standsAlone {u : Variable} {v : Char} {s : List Char} (h : Names u (tokens s))
    (hv : ∀ name, Tree.ofName? name = some (.var u) → name = [v]) : standsAlone v false s = true := by
  obtain ⟨name, n, hmem, hname⟩ := h
  exact standsAlone_of_token hmem (hv _ hname) fun hb => nomatch hb

theorem usesY_of_names {s : List Char} (h : Names .y (tokens s)) : usesY s = true := by
  refine h.standsAlone fun name hname => ?_
  unfold Tree.ofName? at hname
  split at hname <;> first | rfl | cases hname

theorem usesZ_of_names {s : List Char} (h : Names .z (tokens s)) : usesZ s = true := by
  refine h.standsAlone fun name hname => ?_
  unfold Tree.ofName? at hname
  split at hname <;> first | rfl | cases hname

section

variable {α : Type} [Arithmetic α] {s : List Char} {p q : Point α}

theorem evaluate_congr (h : ∀ v, Names v (tokens s) → v.value p = v.value q) :
    evaluate s p = evaluate s q := by
  cases hs : Parsed.ofChars? s with
  | none => simp only [evaluate, hs]
  | some e =>
    obtain ⟨r, hr, rfl⟩ := Option.map_eq_some_iff.mp hs
    have hvalue : Parsed.value ⟨r.tree, r.finish⟩ p = Parsed.value ⟨r.tree, r.finish⟩ q :=
      Tree.eval_congr fun v hv => h v (readSum_faithful _ _ r v hr ((Tree.mentions_map _).mp hv))
    simp only [evaluate, hs, hvalue]

/-- Points that differ only in coordinates that are not used are told apart neither by the value nor by
the issues. -/
theorem evaluate_of_unused (hx : p.x = q.x) (hy : usesY s = true → p.y = q.y)
    (hz : usesZ s = true → p.z = q.z) : evaluate s p = evaluate s q := by
  refine evaluate_congr fun v hv => ?_
  cases v with
  | x => exact hx
  | y => exact hy (usesY_of_names hv)
  | z => exact hz (usesZ_of_names hv)

theorem Formula.value_eq (s : List Char) (p : Point α) :
    (Formula.ofChars s).value p = (evaluate s p).map Evaluation.value := by
  cases hs : Parsed.ofChars? s <;> simp only [evaluate, ofChars, value, hs] <;> rfl

end

end FieldPlot.Expression
