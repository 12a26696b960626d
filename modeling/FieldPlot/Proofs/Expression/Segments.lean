import FieldPlot.Proofs.Expression.Mentions
import Mathlib.Data.List.Pairwise

/-! Tokens as the segments of a text. Each is as long as its kind allows and every character that can be part of a
token is part of one, which leaves a text no second way to be cut. -/

namespace FieldPlot.Expression

/-- Operators, brackets and commas, digits and points, and the letters. -/
def isLexical (c : Char) : Bool :=
  (Mark.ofChar? c).isSome || isNumberChar c || c.isAlpha

def Token.stop (t : Token) : Nat :=
  t.start + t.text.length

/-- Whether the character at offset `i` is part of the token. -/
def Token.Covers (t : Token) (i : Nat) : Prop :=
  t.start ≤ i ∧ i < t.stop

/-- A number is a run of digits and points, a name a letter and a run of letters and digits, and `behind` does not
go on with the run. -/
def Lexeme.Maximal : Lexeme → List Char → Prop
  | mark _, _ => True
  | number w, behind => w ≠ [] ∧ (∀ c ∈ w, isNumberChar c = true) ∧ ∀ c ∈ behind.head?, isNumberChar c = false
  | name w, behind => (∃ c ∈ w.head?, c.isAlpha = true) ∧ (∀ c ∈ w, c.isAlphanum = true) ∧
    ∀ c ∈ behind.head?, c.isAlphanum = false

/-! ### Characters of a token -/

theorem isNumberChar_of_isDigit {c : Char} (h : c.isDigit = true) : isNumberChar c = true := by
  rw [isNumberChar, h, Bool.true_or]

theorem isLexical_of_isAlphanum {c : Char} (h : c.isAlphanum = true) : isLexical c = true := by
  rcases Bool.or_eq_true_iff.mp h with h | h
  · simp [isLexical, h]
  · simp [isLexical, isNumberChar_of_isDigit h]

theorem isLexical_eq_false {c : Char} (h : isLexical c = false) :
    Mark.ofChar? c = none ∧ isNumberChar c = false ∧ c.isAlpha = false := by
  simpa [isLexical, and_assoc] using h

theorem isAlphanum_eq_false {c : Char} (h : isLexical c = false) : c.isAlphanum = false := by
  by_contra hc
  exact absurd (isLexical_of_isAlphanum (Bool.not_eq_false _ ▸ hc)) (by simp [h])

theorem takeWhile_run {p : Char → Bool} {w behind : List Char} (hw : ∀ c ∈ w, p c = true)
    (hbehind : ∀ c ∈ behind.head?, p c = false) :
    (w ++ behind).takeWhile p = w ∧ (w ++ behind).dropWhile p = behind := by
  rw [List.takeWhile_append_of_pos hw, List.dropWhile_append_of_pos hw]
  cases behind with
  | nil => exact ⟨List.append_nil w, rfl⟩
  | cons c behind =>
    have hc : ¬p c = true := by simp [hbehind c rfl]
    rw [List.takeWhile_cons_of_neg hc, List.dropWhile_cons_of_neg hc, List.append_nil]
    exact ⟨rfl, rfl⟩

theorem head?_dropWhile (p : Char → Bool) (s : List Char) : ∀ c ∈ (s.dropWhile p).head?, p c = false := by
  intro c hc
  have hhead := List.head?_dropWhile_not p s
  rw [Option.mem_def.mp hc] at hhead
  exact hhead

namespace Lexeme.Maximal

variable {l l' : Lexeme} {b b' : List Char}

theorem text_ne_nil (h : l.Maximal b) : l.text ≠ [] := by
  cases l with
  | mark m => exact List.cons_ne_nil _ _
  | number w => exact h.1
  | name w =>
    rintro hw
    obtain ⟨c, hc, -⟩ := h.1
    rw [show w = [] from hw] at hc
    cases hc

theorem isLexical_of_mem (h : l.Maximal b) {c : Char} (hc : c ∈ l.text) : isLexical c = true := by
  cases l with
  | mark m =>
    obtain rfl := List.mem_singleton.mp hc
    simp [isLexical, Mark.ofChar?_char]
  | number w => simp [isLexical, h.2.1 c hc]
  | name w => exact isLexical_of_isAlphanum (h.2.1 c hc)

/-- A lexeme of each kind starts with a character of its own. -/
theorem exists_head (h : l.Maximal b) : ∃ c, l.text.head? = some c ∧ match l with
    | .mark m => c = m.char
    | .number _ => isNumberChar c = true
    | .name _ => c.isAlpha = true := by
  cases l with
  | mark m => exact ⟨m.char, rfl, rfl⟩
  | number w =>
    obtain ⟨c, w, rfl⟩ := List.exists_cons_of_ne_nil h.1
    exact ⟨c, rfl, h.2.1 c List.mem_cons_self⟩
  | name w =>
    obtain ⟨c, hc, ha⟩ := h.1
    exact ⟨c, hc, ha⟩

/-- The first character tells the kind of a lexeme, and the text how far it goes. -/
theorem unique (h : l.Maximal b) (h' : l'.Maximal b') (he : l.text ++ b = l'.text ++ b') : l = l' ∧ b = b' := by
  obtain ⟨c, hc, hkind⟩ := h.exists_head
  obtain ⟨c', hc', hkind'⟩ := h'.exists_head
  have hhead : (l.text ++ b).head? = (l'.text ++ b').head? := congrArg List.head? he
  rw [List.head?_append, List.head?_append, hc, hc'] at hhead
  obtain rfl : c = c' := Option.some.inj hhead
  have hmark (m : Mark) : isNumberChar m.char = false ∧ m.char.isAlpha = false :=
    ⟨isNumberChar_mark m, (Bool.or_eq_false_iff.mp (isAlphanum_mark m)).1⟩
  cases l with
  | mark m =>
    obtain rfl : c = m.char := hkind
    cases l' with
    | mark m' =>
      have hm : Mark.ofChar? m.char = Mark.ofChar? m'.char := congrArg Mark.ofChar? hkind'
      rw [Mark.ofChar?_char, Mark.ofChar?_char] at hm
      exact ⟨congrArg mark (Option.some.inj hm), (List.cons.inj he).2⟩
    | number w => exact absurd hkind' (by simp [hmark m])
    | name w => exact absurd hkind' (by simp [hmark m])
  | number w =>
    cases l' with
    | mark m =>
      obtain rfl : c = m.char := hkind'
      exact absurd hkind (by simp [hmark m])
    | number w' =>
      obtain ⟨hw, hb⟩ := takeWhile_run h.2.1 h.2.2
      obtain ⟨hw', hb'⟩ := takeWhile_run h'.2.1 h'.2.2
      rw [show w ++ b = w' ++ b' from he] at hw hb
      exact ⟨congrArg number (hw.symm.trans hw'), hb.symm.trans hb'⟩
    | name w' => exact absurd hkind' (by simp [isAlpha_of_number hkind])
  | name w =>
    cases l' with
    | mark m =>
      obtain rfl : c = m.char := hkind'
      exact absurd hkind (by simp [hmark m])
    | number w' => exact absurd hkind (by simp [isAlpha_of_number hkind'])
    | name w' =>
      obtain ⟨hw, hb⟩ := takeWhile_run h.2.1 h.2.2
      obtain ⟨hw', hb'⟩ := takeWhile_run h'.2.1 h'.2.2
      rw [show w ++ b = w' ++ b' from he] at hw hb
      exact ⟨congrArg name (hw.symm.trans hw'), hb.symm.trans hb'⟩

end Lexeme.Maximal

/-! ### Segments -/

/-- The token stands in `s`, whose first character has the offset `k`, and is maximal there. -/
def Token.StandsIn (k : Nat) (s : List Char) (t : Token) : Prop :=
  ∃ front behind, s = front ++ (t.text ++ behind) ∧ t.start = k + front.length ∧ t.lexeme.Maximal behind

/-- The tokens stand in `s` one behind the other, and every character that can be part of a token is. -/
structure Segments (k : Nat) (s : List Char) (ts : List Token) : Prop where
  ordered : ts.Pairwise fun t u => t.stop ≤ u.start
  stands : ∀ t ∈ ts, t.StandsIn k s
  covered : ∀ i c, s[i]? = some c → isLexical c = true → ∃ t ∈ ts, t.Covers (k + i)

theorem Token.StandsIn.start_lt_stop {k : Nat} {s : List Char} {t : Token} (h : t.StandsIn k s) :
    t.start < t.stop := by
  obtain ⟨_, _, _, _, hmaximal⟩ := h
  have hlength : 0 < t.text.length := List.length_pos_iff.mpr hmaximal.text_ne_nil
  exact Nat.lt_add_of_pos_right hlength

/-! ### The segments that are scanned -/

theorem Token.StandsIn.append {k n : Nat} {s w : List Char} {t : Token} (h : t.StandsIn n s) (hn : k + w.length = n) :
    t.StandsIn k (w ++ s) := by
  obtain ⟨front, behind, rfl, hstart, hmaximal⟩ := h
  refine ⟨w ++ front, behind, (List.append_assoc ..).symm, ?_, hmaximal⟩
  rw [hstart, ← hn, List.length_append, Nat.add_assoc]

/-- A segment in front, and the segments of the text behind it. -/
theorem Segments.cons {k n : Nat} {l : Lexeme} {behind : List Char} {ts : List Token} (hl : l.Maximal behind)
    (hn : k + l.text.length = n) (h : Segments n behind ts) : Segments k (l.text ++ behind) (⟨l, k⟩ :: ts) where
  ordered := by
    refine List.pairwise_cons.mpr ⟨fun u hu => ?_, h.ordered⟩
    obtain ⟨front, _, _, hstart, _⟩ := h.stands u hu
    have hstop : Token.stop ⟨l, k⟩ = n := hn
    omega
  stands t ht := by
    rcases List.mem_cons.mp ht with rfl | ht
    · exact ⟨[], behind, rfl, rfl, hl⟩
    · exact (h.stands t ht).append hn
  covered i c hi hc := by
    by_cases hlt : i < l.text.length
    · exact ⟨_, List.mem_cons_self, Nat.le_add_right k i, Nat.add_lt_add_left hlt k⟩
    · rw [List.getElem?_append_right (Nat.le_of_not_lt hlt)] at hi
      obtain ⟨t, ht, hcovers⟩ := h.covered _ c hi hc
      refine ⟨t, List.mem_cons_of_mem _ ht, ?_⟩
      rwa [show n + (i - l.text.length) = k + i by omega] at hcovers

/-- Text in front that no token can be made of adds no segment. -/
theorem Segments.skip {k : Nat} {c : Char} {s : List Char} {ts : List Token} (hc : isLexical c = false)
    (h : Segments (k + 1) s ts) : Segments k (c :: s) ts where
  ordered := h.ordered
  stands t ht := (h.stands t ht).append (w := [c]) rfl
  covered i d hi hd := by
    cases i with
    | zero =>
      obtain rfl : c = d := Option.some.inj hi
      exact absurd hd (by simp [hc])
    | succ i =>
      obtain ⟨t, ht, hcovers⟩ := h.covered i d hi hd
      refine ⟨t, ht, ?_⟩
      rwa [show k + 1 + i = k + (i + 1) by omega] at hcovers

theorem segments_tokensFrom (k : Nat) (s : List Char) : Segments k s (tokensFrom k s) := by
  have hsplit (p : Char → Bool) (c : Char) (s : List Char) : (c :: s.takeWhile p) ++ s.dropWhile p = c :: s :=
    congrArg (c :: ·) List.takeWhile_append_dropWhile
  have hstop (k n : Nat) : k + (n + 1) = k + 1 + n := by omega
  fun_induction tokensFrom k s with
  | case1 => exact ⟨.nil, by simp, by simp⟩
  | case2 k c s m hm ih =>
    obtain rfl := eq_char_of_ofChar? hm
    exact ih.cons (l := .mark m) trivial rfl
  | case3 k c s hm hc run ih =>
    have hrun : ∀ d ∈ c :: run, isNumberChar d = true :=
      List.forall_mem_cons.mpr ⟨hc, fun d hd => List.mem_takeWhile_imp hd⟩
    have hmaximal : (Lexeme.number (c :: run)).Maximal (s.dropWhile isNumberChar) :=
      ⟨List.cons_ne_nil _ _, hrun, head?_dropWhile _ _⟩
    exact hsplit isNumberChar c s ▸ ih.cons hmaximal (hstop k run.length)
  | case4 k c s hm hc ha run ih =>
    have hrun : ∀ d ∈ c :: run, d.isAlphanum = true :=
      List.forall_mem_cons.mpr ⟨by simp [Char.isAlphanum, ha], fun d hd => List.mem_takeWhile_imp hd⟩
    have hmaximal : (Lexeme.name (c :: run)).Maximal (s.dropWhile Char.isAlphanum) :=
      ⟨⟨c, rfl, ha⟩, hrun, head?_dropWhile _ _⟩
    exact hsplit Char.isAlphanum c s ▸ ih.cons hmaximal (hstop k run.length)
  | case5 k c s hm hc ha ih => exact ih.skip (by simp [isLexical, hm, hc, ha])

/-! ### No second way to cut a text -/

section

variable {k : Nat} {c : Char} {s : List Char} {t : Token} {ts us : List Token}

theorem Segments.nil (h : Segments k [] ts) : ts = [] := by
  refine List.eq_nil_iff_forall_not_mem.mpr fun t ht => ?_
  obtain ⟨front, behind, he, -, hmaximal⟩ := h.stands t ht
  exact hmaximal.text_ne_nil (List.append_eq_nil_iff.mp (List.append_eq_nil_iff.mp he.symm).2).1

/-- No segment starts with a character that no token can be made of. -/
theorem Segments.tail_of_skip (hc : isLexical c = false) (h : Segments k (c :: s) ts) : Segments (k + 1) s ts where
  ordered := h.ordered
  stands t ht := by
    obtain ⟨front, behind, he, hstart, hmaximal⟩ := h.stands t ht
    cases front with
    | nil =>
      obtain ⟨d, w, hw⟩ := List.exists_cons_of_ne_nil hmaximal.text_ne_nil
      rw [List.nil_append, Token.text, hw] at he
      obtain rfl : c = d := (List.cons.inj he).1
      exact absurd (hmaximal.isLexical_of_mem (hw ▸ List.mem_cons_self)) (by simp [hc])
    | cons d front =>
      rw [List.length_cons] at hstart
      exact ⟨front, behind, (List.cons.inj he).2, by omega, hmaximal⟩
  covered i d hi hd := by
    obtain ⟨t, ht, hcovers⟩ := h.covered (i + 1) d hi hd
    refine ⟨t, ht, ?_⟩
    rwa [show k + 1 + i = k + (i + 1) by omega]

/-- Where a token has to start, the first segment does, and the others cut the text behind it. -/
theorem Segments.exists_tail (hc : isLexical c = true) (h : Segments k (c :: s) ts) :
    ∃ l behind us, ts = ⟨l, k⟩ :: us ∧ c :: s = l.text ++ behind ∧ l.Maximal behind ∧
      Segments (k + l.text.length) behind us := by
  obtain ⟨t, ht, hle, -⟩ := h.covered 0 c rfl hc
  obtain ⟨front, behind, he, hstart, hmaximal⟩ := h.stands t ht
  have hfront : front = [] := List.length_eq_zero_iff.mp (by omega)
  rw [hfront, List.nil_append] at he
  rw [hfront, List.length_nil, Nat.add_zero] at hstart
  cases ts with
  | nil => cases ht
  | cons u us =>
    obtain ⟨hafter, hordered⟩ := List.pairwise_cons.mp h.ordered
    -- The segment at the first offset heads the list, since a later one starts behind the end of the head.
    obtain rfl : t = u := by
      refine (List.mem_cons.mp ht).resolve_right fun ht => ?_
      have hu : u.StandsIn k (c :: s) := h.stands u List.mem_cons_self
      have hlt := hu.start_lt_stop
      have hbefore := hafter t ht
      obtain ⟨_, _, _, hstart', _⟩ := hu
      omega
    obtain ⟨l, n⟩ := t
    obtain rfl : n = k := hstart
    refine ⟨l, behind, us, rfl, he, hmaximal, hordered, fun v hv => ?_, fun i d hi hd => ?_⟩
    · obtain ⟨front', behind', he', hstart', hmaximal'⟩ := h.stands v (List.mem_cons_of_mem _ hv)
      have hlength : l.text.length ≤ front'.length := by
        have hbefore : n + l.text.length ≤ v.start := hafter v hv
        omega
      obtain ⟨gap, rfl⟩ := List.prefix_of_prefix_length_le ⟨behind, he.symm⟩ ⟨_, he'.symm⟩ hlength
      refine ⟨gap, behind', List.append_cancel_left ((he.symm.trans he').trans (List.append_assoc ..)), ?_, hmaximal'⟩
      rw [hstart', List.length_append, Nat.add_assoc]
      rfl
    · have hi' : (c :: s)[l.text.length + i]? = some d := by
        rw [he, Token.text, List.getElem?_append_right (Nat.le_add_right ..), Nat.add_sub_cancel_left, hi]
      obtain ⟨v, hv, hcovers⟩ := h.covered _ d hi' hd
      rw [← Nat.add_assoc] at hcovers
      refine ⟨v, (List.mem_cons.mp hv).resolve_left ?_, hcovers⟩
      rintro rfl
      exact absurd hcovers.2 (Nat.not_lt.mpr (Nat.le_add_right ..))

/-- Two ways to cut a text into segments are the same. -/
theorem Segments.unique (h : Segments k s ts) (h' : Segments k s us) : ts = us := by
  -- A segment takes any number of characters off the text, so the induction is on its length.
  generalize hn : s.length = n
  induction n using Nat.strong_induction_on generalizing k s ts us with
  | h n ih =>
    cases s with
    | nil => rw [h.nil, h'.nil]
    | cons c s =>
      cases hc : isLexical c with
      | false => exact ih s.length (by simp [← hn]) (h.tail_of_skip hc) (h'.tail_of_skip hc) rfl
      | true =>
        obtain ⟨l, behind, ts, rfl, he, hl, htail⟩ := h.exists_tail hc
        obtain ⟨l', behind', us, rfl, he', hl', htail'⟩ := h'.exists_tail hc
        obtain ⟨rfl, rfl⟩ := hl.unique hl' (he.symm.trans he')
        have hlength : 0 < l.text.length := List.length_pos_iff.mpr hl.text_ne_nil
        have hshorter : behind.length < n := by
          rw [← hn, he, List.length_append]
          omega
        rw [ih _ hshorter htail htail' rfl]

/-- Segments do not overlap. -/
theorem Segments.eq_of_covers (h : Segments k s ts) {u : Token} (ht : t ∈ ts) (hu : u ∈ ts) {i : Nat}
    (hti : t.Covers i) (hui : u.Covers i) : t = u := by
  by_contra hne
  have hdisjoint : ts.Pairwise fun t u => ∀ i, ¬(t.Covers i ∧ u.Covers i) := by
    refine h.ordered.imp fun hstop i hi => ?_
    have hend := hi.1.2
    have hstart := hi.2.1
    omega
  have hsymmetric : Std.Symm fun t u : Token => ∀ i, ¬(t.Covers i ∧ u.Covers i) := ⟨fun _ _ h i hi => h i hi.symm⟩
  exact hdisjoint.forall ht hu hne i ⟨hti, hui⟩

end

/-! ### The cut of a text -/

/-- The tokens that a text is cut into. Their spans increase and do not overlap, each is the slice of the text at its
start and as long as it can be, and every character that can be part of a token is part of exactly one. A number does
not go on to the left either, unless what stands there belongs to a name. -/
structure Segmentation (s : List Char) (ts : List Token) : Prop where
  ordered : ts.Pairwise fun t u => t.start < u.start ∧ t.stop ≤ u.start
  slice : ∀ t ∈ ts, (s.drop t.start).take t.text.length = t.text
  maximal : ∀ t ∈ ts, t.lexeme.Maximal (s.drop t.stop)
  lexical : ∀ i c, s[i]? = some c → isLexical c = true → ∃! t, t ∈ ts ∧ t.Covers i
  other : ∀ i c, s[i]? = some c → isLexical c = false → ∀ t ∈ ts, ¬t.Covers i
  outside : ∀ w i c, ⟨.number w, i + 1⟩ ∈ ts → s[i]? = some c → isNumberChar c = true →
    ∃ v j, ⟨.name v, j⟩ ∈ ts ∧ Token.Covers ⟨.name v, j⟩ i

section

variable {s : List Char} {t : Token} {ts : List Token}

theorem Token.StandsIn.slice (h : t.StandsIn 0 s) :
    (s.drop t.start).take t.text.length = t.text ∧ t.lexeme.Maximal (s.drop t.stop) := by
  obtain ⟨front, behind, rfl, hstart, hmaximal⟩ := h
  rw [Nat.zero_add] at hstart
  have hdrop : (front ++ (t.text ++ behind)).drop t.start = t.text ++ behind := by rw [hstart, List.drop_left]
  refine ⟨by rw [hdrop, List.take_left], ?_⟩
  rwa [Token.stop, ← List.drop_drop, hdrop, List.drop_left]

theorem Token.standsIn_of_slice (hslice : (s.drop t.start).take t.text.length = t.text)
    (hmaximal : t.lexeme.Maximal (s.drop t.stop)) : t.StandsIn 0 s := by
  refine ⟨s.take t.start, s.drop t.stop, ?_, ?_, hmaximal⟩
  · have hbehind : s.drop t.start = t.text ++ s.drop t.stop := by
      rw [Token.stop, ← List.drop_drop]
      exact (List.take_append_drop _ _).symm.trans (congrArg (· ++ _) hslice)
    rw [← hbehind, List.take_append_drop]
  · have hinside : t.start ≤ s.length := by
      by_contra hout
      rw [List.drop_eq_nil_of_le (Nat.le_of_not_le hout), List.take_nil] at hslice
      exact hmaximal.text_ne_nil hslice.symm
    rw [List.length_take, Nat.min_eq_left hinside, Nat.zero_add]

/-- The characters of a segment are those of its text. -/
theorem Token.StandsIn.mem_text (h : t.StandsIn 0 s) {i : Nat} {c : Char} (hi : s[i]? = some c) (hcovers : t.Covers i) :
    t.text[i - t.start]? = some c := by
  obtain ⟨front, behind, rfl, hstart, -⟩ := h
  obtain ⟨hle, hlt⟩ := hcovers
  rw [Token.stop] at hlt
  rw [List.getElem?_append_right (by omega), List.getElem?_append_left (by omega)] at hi
  rwa [show i - t.start = i - front.length by omega]

/-- A number starts behind another character of numbers only where that ends a name. -/
theorem Segments.name_of_covers (h : Segments 0 s ts) {w : List Char} {i : Nat} {c : Char}
    (hw : ⟨.number w, i + 1⟩ ∈ ts) (ht : t ∈ ts) (hcovers : t.Covers i) (hi : s[i]? = some c)
    (hc : isNumberChar c = true) : ∃ v, t.lexeme = .name v := by
  have htext := (h.stands t ht).mem_text hi hcovers
  have hmaximal := (h.stands t ht).slice.2
  obtain ⟨l, n⟩ := t
  cases l with
  | mark m =>
    obtain rfl := List.mem_singleton.mp (List.mem_of_getElem? htext)
    exact absurd hc (by simp [isNumberChar_mark])
  | name v => exact ⟨v, rfl⟩
  | number v =>
    exfalso
    obtain ⟨hnext, hnumber⟩ := (h.stands _ hw).slice
    obtain ⟨d, w, rfl⟩ := List.exists_cons_of_ne_nil hnumber.1
    have hstop : Token.stop ⟨.number v, n⟩ = i + 1 := by
      refine le_antisymm (Nat.le_of_not_lt fun hlt => ?_) hcovers.2
      have hself : Token.Covers ⟨.number (d :: w), i + 1⟩ (i + 1) := ⟨le_rfl, (h.stands _ hw).start_lt_stop⟩
      have heq := h.eq_of_covers ht hw ⟨Nat.le_succ_of_le hcovers.1, hlt⟩ hself
      have hstart := hcovers.1
      rw [heq] at hstart
      exact absurd hstart (Nat.not_succ_le_self i)
    have hhead : (s.drop (i + 1)).head? = some d := by
      have htake : ((s.drop (i + 1)).take (w.length + 1)).head? = some d := congrArg List.head? hnext
      rwa [List.head?_take, if_neg (Nat.succ_ne_zero _)] at htake
    rw [hstop] at hmaximal
    exact absurd (hmaximal.2.2 d hhead) (by simp [hnumber.2.1 d List.mem_cons_self])

theorem Segments.segmentation (h : Segments 0 s ts) : Segmentation s ts where
  ordered := by
    refine h.ordered.imp_of_mem fun {t u} ht _ hstop => ⟨?_, hstop⟩
    exact (h.stands t ht).start_lt_stop.trans_le hstop
  slice t ht := (h.stands t ht).slice.1
  maximal t ht := (h.stands t ht).slice.2
  lexical i c hi hc := by
    obtain ⟨t, ht, hcovers⟩ := h.covered i c hi hc
    rw [Nat.zero_add] at hcovers
    exact ⟨t, ⟨ht, hcovers⟩, fun u hu => h.eq_of_covers hu.1 ht hu.2 hcovers⟩
  other i c hi hc t ht hcovers := by
    have hmem := List.mem_of_getElem? ((h.stands t ht).mem_text hi hcovers)
    exact absurd ((h.stands t ht).slice.2.isLexical_of_mem hmem) (by simp [hc])
  outside w i c hw hi hc := by
    obtain ⟨t, ht, hcovers⟩ := h.covered i c hi (by simp [isLexical, hc])
    rw [Nat.zero_add] at hcovers
    obtain ⟨v, hv⟩ := h.name_of_covers hw ht hcovers hi hc
    obtain ⟨l, j⟩ := t
    obtain rfl : l = .name v := hv
    exact ⟨v, j, ht, hcovers⟩

theorem Segmentation.segments (h : Segmentation s ts) : Segments 0 s ts where
  ordered := h.ordered.imp And.right
  stands t ht := Token.standsIn_of_slice (h.slice t ht) (h.maximal t ht)
  covered i c hi hc := by
    obtain ⟨t, ⟨ht, hcovers⟩, -⟩ := h.lexical i c hi hc
    exact ⟨t, ht, (Nat.zero_add i).symm ▸ hcovers⟩

theorem segmentation_iff : Segmentation s ts ↔ ts = tokens s := by
  constructor
  · exact fun h => h.segments.unique (segments_tokensFrom 0 s)
  · rintro rfl
    exact (segments_tokensFrom 0 s).segmentation

end

end FieldPlot.Expression
