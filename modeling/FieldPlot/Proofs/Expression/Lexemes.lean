import FieldPlot.Proofs.Expression.Grammar
import FieldPlot.Text.Blank

/-! The lexemes of a text, freed from their positions. A mark ends every run of characters, so a text
can be scanned in two parts around it. -/

namespace FieldPlot.Expression

theorem isNumberChar_mark (m : Mark) : isNumberChar m.char = false := by
  cases m <;> decide

theorem isAlphanum_mark (m : Mark) : m.char.isAlphanum = false := by
  cases m <;> decide

theorem map_lexeme_tokensFrom (start n : Nat) (s : List Char) :
    (tokensFrom start s).map Token.lexeme = (tokensFrom n s).map Token.lexeme := by
  fun_induction tokensFrom start s generalizing n with
  | case1 => simp [tokensFrom]
  | case2 start c s m hm ih => simp [tokensFrom, hm, ih (n + 1)]
  | case3 start c s hm hc run ih =>
    simp [tokensFrom, hm, hc, run, ih (n + 1 + (s.takeWhile isNumberChar).length)]
  | case4 start c s hm hc ha run ih =>
    simp [tokensFrom, hm, hc, ha, run, ih (n + 1 + (s.takeWhile Char.isAlphanum).length)]
  | case5 start c s hm hc ha ih => simp [tokensFrom, hm, hc, ha, ih (n + 1)]

theorem lexemes_nil : lexemes [] = [] := by
  simp [lexemes, tokens, tokensFrom]

section

variable {c : Char} {s : List Char}

theorem lexemes_cons_mark {m : Mark} (hm : Mark.ofChar? c = some m) :
    lexemes (c :: s) = .mark m :: lexemes s := by
  simp [lexemes, tokens, tokensFrom, hm, map_lexeme_tokensFrom 1 0]

theorem lexemes_cons_number (hm : Mark.ofChar? c = none) (hc : isNumberChar c = true) :
    lexemes (c :: s) =
      .number (c :: s.takeWhile isNumberChar) :: lexemes (s.dropWhile isNumberChar) := by
  simp only [lexemes, tokens]
  rw [tokensFrom]
  simp only [hm, hc, if_true, List.map_cons, map_lexeme_tokensFrom _ 0]

theorem lexemes_cons_name (hm : Mark.ofChar? c = none) (hc : isNumberChar c = false)
    (ha : c.isAlpha = true) :
    lexemes (c :: s) =
      .name (c :: s.takeWhile Char.isAlphanum) :: lexemes (s.dropWhile Char.isAlphanum) := by
  simp only [lexemes, tokens]
  rw [tokensFrom]
  simp only [hm, hc, ha, if_true, Bool.false_eq_true, if_false, List.map_cons,
    map_lexeme_tokensFrom _ 0]

theorem lexemes_cons_skip (hm : Mark.ofChar? c = none) (hc : isNumberChar c = false)
    (ha : c.isAlpha = false) : lexemes (c :: s) = lexemes s := by
  simp [lexemes, tokens, tokensFrom, hm, hc, ha, map_lexeme_tokensFrom 1 0]

end

theorem takeWhile_append_stop {p : Char → Bool} {x : Char} (hx : p x = false) (a b : List Char) :
    (a ++ x :: b).takeWhile p = a.takeWhile p := by
  induction a with
  | nil => simp [hx]
  | cons c a ih => cases hc : p c <;> simp [hc, ih]

theorem dropWhile_append_stop {p : Char → Bool} {x : Char} (hx : p x = false) (a b : List Char) :
    (a ++ x :: b).dropWhile p = a.dropWhile p ++ x :: b := by
  induction a with
  | nil => simp [hx]
  | cons c a ih => cases hc : p c <;> simp [hc, ih]

/-- A text with a mark in it is scanned in two parts. -/
theorem lexemes_append_mark (a : List Char) (m : Mark) (b : List Char) :
    lexemes (a ++ m.char :: b) = lexemes a ++ .mark m :: lexemes b := by
  have hscan : ∀ start : Nat,
      lexemes (a ++ m.char :: b) = (tokensFrom start a).map Token.lexeme ++ .mark m :: lexemes b := by
    intro start
    fun_induction tokensFrom start a with
    | case1 => exact lexemes_cons_mark (Mark.ofChar?_char m)
    | case2 start c a m' hm ih => rw [List.cons_append, lexemes_cons_mark hm, ih]; rfl
    | case3 start c a hm hc run ih =>
      rw [List.cons_append, lexemes_cons_number hm hc, takeWhile_append_stop (isNumberChar_mark m),
        dropWhile_append_stop (isNumberChar_mark m), ih]
      rfl
    | case4 start c a hm hc ha run ih =>
      rw [List.cons_append, lexemes_cons_name hm (by simpa using hc) ha,
        takeWhile_append_stop (isAlphanum_mark m), dropWhile_append_stop (isAlphanum_mark m), ih]
      rfl
    | case5 start c a hm hc ha ih =>
      rw [List.cons_append, lexemes_cons_skip hm (by simpa using hc) (by simpa using ha), ih]
  exact hscan 0

theorem lexemes_brackets (s : List Char) :
    lexemes ('(' :: s ++ [')']) = .mark .opening :: lexemes s ++ [.mark .closing] := by
  have hclosing := lexemes_append_mark s .closing []
  rw [lexemes_nil] at hclosing
  exact (lexemes_cons_mark rfl).trans (congrArg (Lexeme.mark .opening :: ·) hclosing)

theorem eq_char_of_ofChar? {c : Char} {m : Mark} (h : Mark.ofChar? c = some m) : c = m.char := by
  unfold Mark.ofChar? at h
  split at h <;> cases h <;> rfl

theorem ofChar?_eq_none {q : Char → Bool} (hq : ∀ m : Mark, q m.char = false) {c : Char}
    (hc : q c = true) : Mark.ofChar? c = none := by
  cases h : Mark.ofChar? c with
  | none => rfl
  | some m =>
    rw [eq_char_of_ofChar? h, hq] at hc
    cases hc

theorem blank_bounds {c : Char} (h : Text.isBlank c = true) : c.toNat ≤ 32 ∨ 133 ≤ c.toNat := by
  simp only [Text.isBlank, Bool.or_eq_true, Bool.and_eq_true, decide_eq_true_eq, beq_iff_eq] at h
  omega

theorem number_bounds {c : Char} (h : isNumberChar c = true) : 46 ≤ c.toNat ∧ c.toNat ≤ 57 := by
  simp only [isNumberChar, Char.isDigit, Bool.or_eq_true, Bool.and_eq_true, decide_eq_true_eq,
    ge_iff_le, UInt32.le_iff_toNat_le] at h
  rcases h with h | rfl
  · exact ⟨le_trans (by decide) h.1, h.2⟩
  · decide

theorem alpha_bounds {c : Char} (h : c.isAlpha = true) : 65 ≤ c.toNat ∧ c.toNat ≤ 122 := by
  have hcase : c.isUpper = true ∨ c.isLower = true := (Bool.or_eq_true _ _).mp h
  rcases hcase with hupper | hlower
  · have hbounds : 65 ≤ c.toNat ∧ c.toNat ≤ 90 := of_decide_eq_true hupper
    omega
  · have hbounds : 97 ≤ c.toNat ∧ c.toNat ≤ 122 := by
      obtain ⟨hlow, hhigh⟩ := (Bool.and_eq_true _ _).mp hlower
      exact ⟨of_decide_eq_true hlow, of_decide_eq_true hhigh⟩
    omega

theorem lexemes_dropWhile_blank (x : List Char) :
    lexemes (x.dropWhile Text.isBlank) = lexemes x := by
  induction x with
  | nil => rfl
  | cons c x ih =>
    cases hc : Text.isBlank c with
    | false => rw [List.dropWhile_cons_of_neg (by simp [hc])]
    | true =>
      have hm : Mark.ofChar? c = none :=
        ofChar?_eq_none (fun m => by cases m <;> decide) hc
      have hbounds := blank_bounds hc
      have hn : isNumberChar c = false := by
        by_contra hn
        have hnumber := number_bounds (Bool.not_eq_false _ ▸ hn)
        omega
      have ha : c.isAlpha = false := by
        by_contra ha
        have halpha := alpha_bounds (Bool.not_eq_false _ ▸ ha)
        omega
      rw [List.dropWhile_cons_of_pos hc, ih, lexemes_cons_skip hm hn ha]

end FieldPlot.Expression
