import FieldPlot.Expression.Double
import FieldPlot.Proofs.Expression.Lexemes
import FieldPlot.Proofs.Expression.OpenBrackets
import FieldPlot.Proofs.Expression.WellFormed

/-! How many brackets a text keeps open. A closing bracket that is taken for a missing operand closes nothing, so
that a text stays within the nesting limit where its brackets leave room for all of those, and a text that opens few
brackets at once may still exceed it. -/

namespace FieldPlot.Expression

/-! ### Closing brackets that close nothing -/

/-- Whether an operand is missing where nothing follows `l`. -/
def Lexeme.asksOperand : Lexeme → Bool
  | mark .closing => false
  | mark _ => true
  | number _ | name _ => false

/-- The closing brackets that stand where an operand is missing. -/
def gaps (asked : Bool) : List Lexeme → Nat
  | [] => 0
  | l :: w => (if asked && l = .mark .closing then 1 else 0) + gaps l.asksOperand w

def Stage.asksOperand : Stage → Bool
  | start _ | signed _ => true
  | named _ | ended _ => false

section

variable {c c' : Pass} {base : Bool} {bs : List Bracket} {l : Lexeme} {w : List Lexeme}

theorem length_dropWhile_lt {p : Bracket → Bool} {b : Bracket} {cs : List Bracket}
    (h : bs.dropWhile p = b :: cs) : cs.length < bs.length := by
  have hle := (List.dropWhile_sublist (l := bs) p).length_le
  rw [h] at hle
  exact hle

theorem takeOperand_brackets (base : Bool) (bs : List Bracket) (l : Lexeme) :
    (Pass.takeOperand base bs l).brackets.length = bs.length + [l].count (.mark .opening) := by
  cases l with
  | mark m => cases m <;> rfl
  | number s => rfl
  | name s =>
    rw [Pass.takeOperand]
    split <;> rfl

theorem takeOperand_asks (h : (Pass.takeOperand base bs l).stage.asksOperand = true) : l = .mark .opening := by
  cases l with
  | mark m => cases m <;> first | rfl | cases h
  | number s => cases h
  | name s =>
    rw [Pass.takeOperand] at h
    split at h <;> cases h

/-- Behind an operand every closing bracket closes one, and no bracket is opened. -/
theorem goOn?_brackets (h : Pass.goOn? base bs l = some c') :
    c'.brackets.length + [l].count (.mark .closing) ≤ bs.length ∧
      (c'.stage.asksOperand = true → l.asksOperand = true) := by
  cases l with
  | number s => cases h
  | name s => cases h
  | mark m =>
    cases m with
    | opening => cases h
    | plus | minus | times | divide =>
      obtain rfl := Option.some.inj h
      exact ⟨le_rfl, fun _ => rfl⟩
    | closing =>
      cases bs with
      | nil => cases h
      | cons b bs =>
        obtain rfl := Option.some.inj h
        exact ⟨le_rfl, fun h => nomatch h⟩
    | power =>
      rw [Pass.goOn?] at h
      split at h
      · obtain rfl := Option.some.inj h
        exact ⟨le_rfl, fun _ => rfl⟩
      · split at h
        · cases h
        · next hdrop =>
          obtain rfl := Option.some.inj h
          exact ⟨(length_dropWhile_lt hdrop).le, fun _ => rfl⟩
    | comma =>
      rw [Pass.goOn?] at h
      split at h
      · cases h
      · next hdrop =>
        obtain rfl := Option.some.inj h
        exact ⟨length_dropWhile_lt hdrop, fun _ => rfl⟩

/-- A step opens a bracket at most where the lexeme does, and closes one with each closing bracket behind an
operand. -/
theorem step?_brackets (h : c.step? l = some c') {asked : Bool} (hasked : c.stage.asksOperand = true → asked = true) :
    c'.brackets.length + [l].count (.mark .closing) ≤
      c.brackets.length + [l].count (.mark .opening) + (if asked && l = .mark .closing then 1 else 0) ∧
    (c'.stage.asksOperand = true → l.asksOperand = true) := by
  obtain ⟨stage, bs⟩ := c
  have hoperand {base : Bool} (hasked : asked = true) (h : Pass.takeOperand base bs l = c') :
      c'.brackets.length + [l].count (.mark .closing) ≤
        bs.length + [l].count (.mark .opening) + (if asked && l = .mark .closing then 1 else 0) ∧
      (c'.stage.asksOperand = true → l.asksOperand = true) := by
    subst h
    refine ⟨?_, fun h => ?_⟩
    · rw [takeOperand_brackets, hasked]
      by_cases hl : l = .mark .closing <;> simp [hl]
    · rw [takeOperand_asks h]
      rfl
  have hbehind {base : Bool} (h : Pass.goOn? base bs l = some c') :
      c'.brackets.length + [l].count (.mark .closing) ≤
        bs.length + [l].count (.mark .opening) + (if asked && l = .mark .closing then 1 else 0) ∧
      (c'.stage.asksOperand = true → l.asksOperand = true) := by
    obtain ⟨hlength, hasks⟩ := goOn?_brackets h
    exact ⟨by omega, hasks⟩
  cases stage with
  | start base =>
    rw [Pass.step?] at h
    dsimp only at h
    split at h
    · next hsign =>
      obtain rfl := Option.some.inj h
      rcases hsign with rfl | rfl <;> exact ⟨Nat.le_add_right _ _, fun _ => rfl⟩
    · exact hoperand (hasked rfl) (Option.some.inj h)
  | signed base => exact hoperand (hasked rfl) (Option.some.inj h)
  | named base =>
    rw [Pass.step?] at h
    dsimp only at h
    split at h
    · next hopening =>
      obtain rfl := Option.some.inj h
      rw [hopening]
      exact ⟨Nat.le_add_right _ _, fun _ => rfl⟩
    · exact hbehind h
  | ended base => exact hbehind h

/-- A pass has at most those brackets open that are open behind some of the lexemes, and the ones whose closing
bracket has been taken for a missing operand. -/
theorem mostOpen_le {bound : Nat} {asked : Bool} (hasked : c.stage.asksOperand = true → asked = true)
    (h : ∀ v, v <+: w → c.brackets.length + v.count (.mark .opening) + gaps asked w ≤
      v.count (.mark .closing) + bound) : c.mostOpen w ≤ bound := by
  induction w generalizing c asked with
  | nil => simpa [gaps, Pass.mostOpen] using h [] List.nil_prefix
  | cons l w ih =>
    have hnone := h [] List.nil_prefix
    simp only [List.count_nil] at hnone
    refine max_le (by omega) ?_
    cases hstep : c.step? l with
    | none => exact Nat.zero_le bound
    | some c' =>
      obtain ⟨hbrackets, hasks⟩ := step?_brackets hstep hasked
      refine ih hasks fun v hv => ?_
      have hl := h (l :: v) ((List.prefix_cons_inj l).mpr hv)
      rw [← List.singleton_append, List.count_append, List.count_append, gaps] at hl
      omega

end

/-! ### Counting in the text -/

theorem count_run {r : List Char} (h : ∀ c ∈ r, Mark.ofChar? c = none) (m : Mark) : r.count m.char = 0 := by
  rw [List.count_eq_zero]
  intro hmem
  have hnone := h _ hmem
  rw [Mark.ofChar?_char] at hnone
  cases hnone

theorem ofChar?_run {p : Char → Bool} (hp : ∀ m : Mark, p m.char = false) {c : Char}
    (hc : Mark.ofChar? c = none) (s : List Char) : ∀ d ∈ c :: s.takeWhile p, Mark.ofChar? d = none := by
  intro d hd
  rcases List.mem_cons.mp hd with rfl | hd
  · exact hc
  · exact ofChar?_eq_none hp (List.mem_takeWhile_imp hd)

/-- The part `t` of a text holds the marks of the lexemes `v`. -/
def SameMarks (t : List Char) (v : List Lexeme) : Prop :=
  ∀ m : Mark, t.count m.char = v.count (.mark m)

theorem SameMarks.mark {t : List Char} {v : List Lexeme} (h : SameMarks t v) (m : Mark) :
    SameMarks (m.char :: t) (.mark m :: v) := by
  intro m'
  have hchar : (m.char == m'.char) = (Lexeme.mark m == Lexeme.mark m') := by
    rw [Bool.eq_iff_iff, beq_iff_eq, beq_iff_eq, Lexeme.mark.injEq]
    refine ⟨fun h => ?_, congrArg _⟩
    exact Option.some.inj ((Mark.ofChar?_char m).symm.trans (h ▸ Mark.ofChar?_char m'))
  rw [List.count_cons, List.count_cons, h m', hchar]

theorem SameMarks.run {r t : List Char} {v : List Lexeme} (h : SameMarks t v)
    (hr : ∀ c ∈ r, Mark.ofChar? c = none) : SameMarks (r ++ t) v := by
  intro m
  rw [List.count_append, count_run hr, h m, Nat.zero_add]

theorem SameMarks.cons {t : List Char} {v : List Lexeme} (h : SameMarks t v) {l : Lexeme}
    (hl : ∀ m, l ≠ .mark m) : SameMarks t (l :: v) := by
  intro m
  rw [List.count_cons_of_ne (hl m), h m]

/-- The first lexemes of a text are scanned from a first part of it that holds the same marks. -/
theorem exists_prefix_of_lexemes {s : List Char} {v : List Lexeme} (h : v <+: lexemes s) :
    ∃ t, t <+: s ∧ SameMarks t v := by
  have hscan : ∀ start : Nat, v <+: (tokensFrom start s).map Token.lexeme → ∃ t, t <+: s ∧ SameMarks t v := by
    intro start hv
    clear h
    fun_induction tokensFrom start s generalizing v with
    | case1 =>
      obtain rfl := List.prefix_nil.mp hv
      exact ⟨[], List.nil_prefix, fun _ => rfl⟩
    | case2 start c s m hm ih =>
      obtain rfl := eq_char_of_ofChar? hm
      rcases List.prefix_cons_iff.mp hv with rfl | ⟨v, rfl, htail⟩
      · exact ⟨[], List.nil_prefix, fun _ => rfl⟩
      · obtain ⟨t, ht, hmarks⟩ := ih htail
        exact ⟨m.char :: t, (List.prefix_cons_inj _).mpr ht, hmarks.mark m⟩
    | case3 start c s hm hc run =>
      rename_i ih
      rcases List.prefix_cons_iff.mp hv with rfl | ⟨v, rfl, htail⟩
      · exact ⟨[], List.nil_prefix, fun _ => rfl⟩
      · obtain ⟨t, ht, hmarks⟩ := ih htail
        have hs : c :: s = (c :: run) ++ s.dropWhile isNumberChar :=
          congrArg (c :: ·) List.takeWhile_append_dropWhile.symm
        refine ⟨(c :: run) ++ t, hs ▸ (List.prefix_append_right_inj _).mpr ht, ?_⟩
        exact (hmarks.cons (l := .number (c :: run)) (by simp)).run (ofChar?_run isNumberChar_mark hm s)
    | case4 start c s hm hc ha run =>
      rename_i ih
      rcases List.prefix_cons_iff.mp hv with rfl | ⟨v, rfl, htail⟩
      · exact ⟨[], List.nil_prefix, fun _ => rfl⟩
      · obtain ⟨t, ht, hmarks⟩ := ih htail
        have hs : c :: s = (c :: run) ++ s.dropWhile Char.isAlphanum :=
          congrArg (c :: ·) List.takeWhile_append_dropWhile.symm
        refine ⟨(c :: run) ++ t, hs ▸ (List.prefix_append_right_inj _).mpr ht, ?_⟩
        exact (hmarks.cons (l := .name (c :: run)) (by simp)).run (ofChar?_run isAlphanum_mark hm s)
    | case5 start c s hm hc ha ih =>
      obtain ⟨t, ht, hmarks⟩ := ih hv
      exact ⟨c :: t, (List.prefix_cons_inj c).mpr ht, hmarks.run (r := [c]) (List.forall_mem_singleton.mpr hm)⟩
  exact hscan 0 h

/-! ### Evaluation within the limit -/

section

variable {α : Type} [Arithmetic α]

theorem returns_iff_mostOpen (s : List Char) (p : Point α) :
    Returns (evaluate s p) ↔ Pass.first.mostOpen (lexemes s) < nestingLimit := by
  rw [returns_evaluate, lexemes, ← readSum_isSome_iff, Parsed.ofChars?, Parsed.ofCharsWithin?, Option.isSome_map]

/-- A text can be evaluated exactly if fewer brackets are open for the reader than the limit allows. They are at most
those that are open in some first part of the text and those whose closing bracket stands for a missing operand. -/
theorem returns_of_brackets (s : List Char) (p : Point α) :
    (Returns (evaluate s p) ↔ Pass.first.mostOpen (lexemes s) < nestingLimit) ∧
    ((∀ t, t <+: s → t.count '(' + gaps true (lexemes s) < t.count ')' + nestingLimit) →
      Returns (evaluate s p)) := by
  have hexact := returns_iff_mostOpen s p
  refine ⟨hexact, fun h => hexact.mpr ?_⟩
  have hbound : Pass.first.mostOpen (lexemes s) ≤ nestingLimit - 1 := by
    refine mostOpen_le (fun _ => rfl) fun v hv => ?_
    obtain ⟨t, ht, hmarks⟩ := exists_prefix_of_lexemes hv
    have hroom := h t ht
    have hopening : t.count '(' = v.count (.mark .opening) := hmarks .opening
    have hclosing : t.count ')' = v.count (.mark .closing) := hmarks .closing
    have hnone : Pass.first.brackets.length = 0 := rfl
    omega
  exact hbound.trans_lt (by decide)

/-- The bracket behind the plus closes nothing, so that the second one is opened inside of the first. -/
example : Pass.first.mostOpen (lexemes "(1+)*(2)".toList) = 2 := by
  decide +kernel

end

/-! ### Empty brackets -/

/-- The sum of `n` empty pairs of brackets and 1. -/
def hollow : (n : Nat) → List Char
  | 0 => ['1']
  | n + 1 => '(' :: ')' :: '+' :: hollow n

theorem lexemes_hollow_succ (n : Nat) : lexemes (hollow (n + 1)) =
    .mark .opening :: .mark .closing :: .mark .plus :: lexemes (hollow n) := by
  rw [hollow, lexemes_cons_mark rfl, lexemes_cons_mark rfl, lexemes_cons_mark rfl]

/-- Each pair leaves its bracket open. -/
theorem mostOpen_hollow (n : Nat) (bs : List Bracket) :
    Pass.mostOpen ⟨.start true, bs⟩ (lexemes (hollow n)) = bs.length + n := by
  induction n generalizing bs with
  | zero =>
    have hone : lexemes (hollow 0) = [.number ['1']] := by
      rw [hollow, lexemes_cons_number rfl rfl, List.takeWhile_nil, List.dropWhile_nil, lexemes_nil]
    rw [hone]
    exact max_self bs.length
  | succ n ih =>
    have hopen := ih (⟨true, false⟩ :: bs)
    rw [List.length_cons] at hopen
    rw [lexemes_hollow_succ]
    simp only [Pass.mostOpen, Pass.step?, Pass.takeOperand, Pass.goOn?, reduceCtorEq, or_self, if_false,
      Lexeme.mark.injEq, Option.elim_some, List.length_cons, hopen]
    omega

theorem count_prefix_hollow {n : Nat} {t : List Char} (h : t <+: hollow n) : t.count '(' ≤ t.count ')' + 1 := by
  induction n generalizing t with
  | zero =>
    have hnone : t.count '(' ≤ (hollow 0).count '(' := h.sublist.count_le '('
    have hzero : (hollow 0).count '(' = 0 := by decide
    omega
  | succ n ih =>
    rcases List.prefix_cons_iff.mp h with rfl | ⟨t, rfl, hclosing⟩
    · decide
    rcases List.prefix_cons_iff.mp hclosing with rfl | ⟨t, rfl, hplus⟩
    · decide
    rcases List.prefix_cons_iff.mp hplus with rfl | ⟨t, rfl, hrest⟩
    · decide
    have hcount := ih hrest
    simpa using hcount

theorem evaluate_hollow {α : Type} [Arithmetic α] (n : Nat) (p : Point α) :
    Returns (evaluate (hollow n) p) ↔ n < nestingLimit := by
  rw [returns_iff_mostOpen, Pass.first, mostOpen_hollow, List.length_nil, Nat.zero_add]

/-- In no part of the text are more than a hundred brackets open, but for the reader three thousand are. -/
theorem hollow_exhausts : (∀ t, t <+: hollow 3000 → t.count '(' ≤ t.count ')' + 100) ∧
    evaluate (hollow 3000) (⟨0.0, 0.0, 0.0⟩ : Point Float) = .error .nestedTooDeep := by
  constructor
  · intro t ht
    have hcount := count_prefix_hollow ht
    omega
  · have hfails := mt (evaluate_hollow 3000 (⟨0.0, 0.0, 0.0⟩ : Point Float)).mp (by decide)
    rw [returns_evaluate, Option.not_isSome_iff_eq_none] at hfails
    rw [evaluate, hfails]

end FieldPlot.Expression
