import FieldPlot.Proofs.Expression.Literal
import FieldPlot.Proofs.Expression.Readers

/-! What is read without an issue is derived from the grammar. Each reader is sound if the one for
sums a level further inside is, so the induction is on the levels alone. -/

namespace FieldPlot.Expression

def Scanned (ts : List Token) : Prop :=
  ∀ t ∈ ts, ∀ s, t.lexeme = .number s → ∀ c ∈ s, isNumberChar c = true

theorem Scanned.of_append {us ts : List Token} (h : Scanned (us ++ ts)) : Scanned ts :=
  fun t ht => h t (List.mem_append_right _ ht)

theorem Scanned.of_cons {t : Token} {ts : List Token} (h : Scanned (t :: ts)) : Scanned ts :=
  fun u hu => h u (List.mem_cons_of_mem _ hu)

theorem scanned_tokensFrom (start : Nat) (s : List Char) : Scanned (tokensFrom start s) := by
  fun_induction tokensFrom start s with
  | case1 => simp [Scanned]
  | case2 start c s m hm ih =>
    intro t ht
    rcases List.mem_cons.mp ht with rfl | ht
    · simp
    · exact ih t ht
  | case3 start c s hm hc run ih =>
    intro t ht
    rcases List.mem_cons.mp ht with rfl | ht
    · rintro _ ⟨⟩ d hd
      rcases List.mem_cons.mp hd with rfl | hd
      · exact hc
      · exact List.mem_takeWhile_imp hd
    · exact ih t ht
  | case4 start c s hm hc ha run ih =>
    intro t ht
    rcases List.mem_cons.mp ht with rfl | ht
    · simp
    · exact ih t ht
  | case5 start c s hm hc ha ih => exact ih

/-- What `read` takes without an issue is derived from `k`. -/
def Sound (k : Phrase) (read : Reader) : Prop :=
  ∀ ts r, Scanned ts → read ts = some r → r.issues = [] →
    ∃ us, ts = us ++ r.rest ∧ Derives k (us.map Token.lexeme) r.tree

theorem Reading.of_close_clean {issue : Issue} {r : Reading} (h : (r.close issue).issues = []) :
    ∃ n us, r.rest = ⟨.mark .closing, n⟩ :: us ∧ r.issues = [] ∧
      r.close issue = { r with rest := us } := by
  by_cases hm : headMark? r.rest = some .closing
  · obtain ⟨n, us, hr⟩ := headMark?_eq_some.mp hm
    have hc := Reading.close_closing issue hr
    rw [hc] at h
    exact ⟨n, us, hr, h, hc⟩
  · rw [Reading.close_missing issue hm] at h
    exact absurd h (by simp)

theorem Reading.of_knownCall_clean {f : Option Function} {name : List Char} {start : Nat}
    {tree : Function → Tree Numeral} {r : Reading}
    (h : (r.knownCall f name start tree).issues = []) :
    ∃ g, f = some g ∧ r.issues = [] ∧ r.knownCall f name start tree = { r with tree := tree g } := by
  cases f with
  | none => simp [Reading.knownCall] at h
  | some g => exact ⟨g, rfl, h, rfl⟩

theorem readCall_sound {inner : Reader} (hi : Sound .sum inner) {name : List Char} {start : Nat}
    {ts : List Token} {r : Reading} (hs : Scanned ts) (h : readCall inner name start ts = some r)
    (he : r.issues = []) :
    ∃ us, ts = us ++ r.rest ∧
      Derives .operand (.name name :: .mark .opening :: us.map Token.lexeme) r.tree := by
  cases hf : inner ts with
  | none => simp [readCall_none hf] at h
  | some first =>
    by_cases hc : headMark? first.rest = some .comma
    · obtain ⟨n, vs, hr⟩ := headMark?_eq_some.mp hc
      rw [readCall_two hf hr] at h
      obtain ⟨second, hg, rfl⟩ := Option.map_eq_some_iff.mp h
      obtain ⟨f, hname, hclose, hk⟩ := Reading.of_knownCall_clean he
      obtain ⟨n', rest, hr', hiss, hcl⟩ := Reading.of_close_clean hclose
      obtain ⟨hi₁, hi₂⟩ := List.append_eq_nil_iff.mp hiss
      obtain ⟨us, rfl, hd⟩ := hi ts first hs hf hi₁
      rw [hr] at hs
      obtain ⟨ws, rfl, hd'⟩ := hi vs second hs.of_append.of_cons hg hi₂
      simp only at hr'
      refine ⟨us ++ ⟨.mark .comma, n⟩ :: ws ++ [⟨.mark .closing, n'⟩], ?_, ?_⟩
      · rw [hk, hcl, hr, hr']
        simp
      · rw [hk]
        simpa using Derives.callTwo (Function.eq_of_ofName? hname) hd hd'
    · rw [readCall_one hf hc] at h
      obtain rfl := Option.some.inj h
      obtain ⟨f, hname, hclose, hk⟩ := Reading.of_knownCall_clean he
      obtain ⟨n, rest, hr, hiss, hcl⟩ := Reading.of_close_clean hclose
      obtain ⟨us, rfl, hd⟩ := hi ts first hs hf hiss
      refine ⟨us ++ [⟨.mark .closing, n⟩], ?_, ?_⟩
      · rw [hk, hcl, hr]
        simp
      · rw [hk]
        simpa using Derives.call (Function.eq_of_ofName? hname) hd

theorem readOperand_sound {inner : Reader} (hi : Sound .sum inner) :
    Sound .operand (readOperand inner) := by
  intro ts r hs h he
  cases readOperand_cases h with
  | skipped => cases he
  | @group n us first hf =>
    obtain ⟨n', rest, hr, hiss, hcl⟩ := Reading.of_close_clean he
    obtain ⟨us, rfl, hd⟩ := hi us first hs.of_cons hf hiss
    refine ⟨⟨.mark .opening, n⟩ :: us ++ [⟨.mark .closing, n'⟩], ?_, ?_⟩
    · rw [hcl, hr]
      simp
    · rw [hcl]
      simpa using Derives.group hd
  | @number s n us v hv =>
    have hc := hs _ List.mem_cons_self s rfl
    obtain ⟨hdigit, hpoint, rfl⟩ := (Numeral.ofChars?_eq_some_iff hc).mp hv
    exact ⟨[⟨.number s, n⟩], rfl, .number hc hdigit hpoint⟩
  | @name s n us a ha => exact ⟨[⟨.name s, n⟩], rfl, .name ha⟩
  | @call s start n us r hcall =>
    obtain ⟨vs, rfl, hd⟩ := readCall_sound hi hs.of_cons.of_cons hcall he
    exact ⟨⟨.name s, start⟩ :: ⟨.mark .opening, n⟩ :: vs, by simp, by simpa using hd⟩

theorem readSigned_sound {inner : Reader} (hi : Sound .sum inner) :
    Sound .signed (readSigned inner) := by
  intro ts r hs h he
  by_cases hm : headMark? ts = some .minus
  · obtain ⟨n, ts, rfl⟩ := headMark?_eq_some.mp hm
    rw [readSigned_minus] at h
    obtain ⟨r, hr, rfl⟩ := Option.map_eq_some_iff.mp h
    obtain ⟨us, rfl, hd⟩ := readOperand_sound hi ts r hs.of_cons hr he
    exact ⟨⟨.mark .minus, n⟩ :: us, rfl, .minus hd⟩
  · by_cases hp : headMark? ts = some .plus
    · obtain ⟨n, ts, rfl⟩ := headMark?_eq_some.mp hp
      rw [readSigned_plus] at h
      obtain ⟨us, rfl, hd⟩ := readOperand_sound hi ts r hs.of_cons h he
      exact ⟨⟨.mark .plus, n⟩ :: us, rfl, .plus hd⟩
    · rw [readSigned_unsigned hm hp] at h
      obtain ⟨us, hu, hd⟩ := readOperand_sound hi ts r hs h he
      exact ⟨us, hu, .unsigned hd⟩

theorem readPower_sound {inner : Reader} (hi : Sound .sum inner) :
    Sound .power (readPower inner) := by
  intro ts r hs h he
  cases hb : readSigned inner ts with
  | none => simp [readPower_none hb] at h
  | some base =>
    by_cases hm : headMark? base.rest = some .power
    · obtain ⟨n, vs, hr⟩ := headMark?_eq_some.mp hm
      rw [readPower_raised hb hr] at h
      obtain ⟨exponent, hx, rfl⟩ := Option.map_eq_some_iff.mp h
      obtain ⟨hi₁, hi₂⟩ := List.append_eq_nil_iff.mp he
      obtain ⟨us, rfl, hd⟩ := readSigned_sound hi ts base hs hb hi₁
      rw [hr] at hs
      obtain ⟨ws, rfl, hd'⟩ := readSigned_sound hi vs exponent hs.of_append.of_cons hx hi₂
      refine ⟨us ++ ⟨.mark .power, n⟩ :: ws, by simp [hr, Reading.join], ?_⟩
      rw [List.map_append, List.map_cons]
      exact .raised hd hd'
    · rw [readPower_base hb hm] at h
      obtain rfl := Option.some.inj h
      obtain ⟨us, hu, hd⟩ := readSigned_sound hi ts base hs hb he
      exact ⟨us, hu, .base hd⟩

theorem readChain_clean {operand : Reader} {op? : Mark → Option Binary} {fuel : Nat}
    {r r' : Reading} (h : readChain operand op? fuel r = some r') (he : r'.issues = []) :
    r.issues = [] := by
  induction fuel generalizing r with
  | zero =>
    obtain rfl := Option.some.inj h
    exact he
  | succ fuel ih =>
    cases hop : (headMark? r.rest).bind op? with
    | none =>
      rw [readChain_end _ hop] at h
      obtain rfl := Option.some.inj h
      exact he
    | some op =>
      obtain ⟨m, hm, hop⟩ := Option.bind_eq_some_iff.mp hop
      obtain ⟨n, vs, hr⟩ := headMark?_eq_some.mp hm
      rw [readChain_step hr hop] at h
      obtain ⟨s, _, h⟩ := Option.bind_eq_some_iff.mp h
      exact (List.append_eq_nil_iff.mp (ih h)).1

/-- Joining further operands keeps what has been read so far a derivation of `k`. -/
theorem readChain_sound {k j : Phrase} {operand : Reader} {op? : Mark → Option Binary}
    (ho : Sound j operand)
    (hj : ∀ {w v a b m op}, op? m = some op → Derives k w a → Derives j v b →
      Derives k (w ++ .mark m :: v) (.binary op a b))
    {fuel : Nat} {r r' : Reading} {us : List Token} (hs : Scanned (us ++ r.rest))
    (hd : Derives k (us.map Token.lexeme) r.tree)
    (h : readChain operand op? fuel r = some r') (he : r'.issues = []) :
    ∃ vs, us ++ r.rest = vs ++ r'.rest ∧ Derives k (vs.map Token.lexeme) r'.tree := by
  induction fuel generalizing r us with
  | zero =>
    obtain rfl := Option.some.inj h
    exact ⟨us, rfl, hd⟩
  | succ fuel ih =>
    cases hop : (headMark? r.rest).bind op? with
    | none =>
      rw [readChain_end _ hop] at h
      obtain rfl := Option.some.inj h
      exact ⟨us, rfl, hd⟩
    | some op =>
      obtain ⟨m, hm, hop⟩ := Option.bind_eq_some_iff.mp hop
      obtain ⟨n, vs, hr⟩ := headMark?_eq_some.mp hm
      rw [readChain_step hr hop] at h
      obtain ⟨s, hx, hrest⟩ := Option.bind_eq_some_iff.mp h
      have hc := (List.append_eq_nil_iff.mp (readChain_clean hrest he)).2
      rw [hr] at hs
      obtain ⟨ws, rfl, hd'⟩ := ho vs s hs.of_append.of_cons hx hc
      have hsplit : us ++ r.rest = (us ++ ⟨.mark m, n⟩ :: ws) ++ (r.join op s).rest := by
        simp [hr, Reading.join]
      rw [hsplit]
      refine ih ?_ ?_ hrest
      · rwa [← hsplit, hr]
      · rw [List.map_append, List.map_cons]
        exact hj hop hd hd'

theorem readOperands_sound {k j : Phrase} {operand : Reader} {op? : Mark → Option Binary}
    (ho : Sound j operand) (hu : ∀ {w a}, Derives j w a → Derives k w a)
    (hj : ∀ {w v a b m op}, op? m = some op → Derives k w a → Derives j v b →
      Derives k (w ++ .mark m :: v) (.binary op a b)) :
    Sound k (readOperands operand op?) := by
  intro ts r hs h he
  cases hf : operand ts with
  | none => simp [readOperands_none hf] at h
  | some first =>
    rw [readOperands_some hf] at h
    obtain ⟨us, rfl, hd⟩ := ho ts first hs hf (readChain_clean h he)
    exact readChain_sound ho hj hs (hu hd) h he

theorem readTerm_sound {inner : Reader} (hi : Sound .sum inner) : Sound .term (readTerm inner) :=
  readOperands_sound (readPower_sound hi) .factor .product

theorem readSum_sound (levels : Nat) : Sound .sum (readSum levels) := by
  induction levels with
  | zero =>
    intro ts r _ h
    simp [readSum] at h
  | succ levels ih => exact readOperands_sound (readTerm_sound ih) .summand .sum

end FieldPlot.Expression
