import FieldPlot.Proofs.Expression.Enclosed
import FieldPlot.Proofs.Expression.LeftOperand
import FieldPlot.Proofs.Expression.UnreadTail

/-! A closing bracket behind a text that needs none. The reading ends in front of it, so that nothing behind it
counts, whatever it is; without the bracket the operator behind it would have been applied. -/

namespace FieldPlot.Expression

/-! ### Scanning around a mark -/

theorem length_takeWhile_dropWhile (p : Char → Bool) (s : List Char) :
    (s.takeWhile p).length + (s.dropWhile p).length = s.length := by
  rw [← List.length_append, List.takeWhile_append_dropWhile]

/-- A mark is a token of its own where it stands, and what is behind it is scanned by itself. -/
theorem tokensFrom_append_mark {start n : Nat} {s : List Char} (hn : start + s.length = n) (m : Mark)
    (rest : List Char) : tokensFrom start (s ++ m.char :: rest) =
      tokensFrom start s ++ ⟨.mark m, n⟩ :: tokensFrom (n + 1) rest := by
  fun_induction tokensFrom start s with
  | case1 start =>
    obtain rfl : start = n := hn
    simp [tokensFrom, Mark.ofChar?_char]
  | case2 start c s m' hm ih =>
    rw [List.length_cons] at hn
    rw [List.cons_append, tokensFrom]
    simp only [hm, ih (by omega), List.cons_append]
  | case3 start c s hm hc run ih =>
    have hlength : run.length + (s.dropWhile isNumberChar).length = s.length :=
      length_takeWhile_dropWhile isNumberChar s
    rw [List.length_cons] at hn
    rw [List.cons_append, tokensFrom]
    simp only [hm, hc, if_true, takeWhile_append_stop (isNumberChar_mark m),
      dropWhile_append_stop (isNumberChar_mark m), List.cons_append]
    rw [ih (by omega)]
  | case4 start c s hm hc ha run ih =>
    have hlength : run.length + (s.dropWhile Char.isAlphanum).length = s.length :=
      length_takeWhile_dropWhile Char.isAlphanum s
    rw [List.length_cons] at hn
    rw [List.cons_append, tokensFrom]
    simp only [hm, hc, ha, if_true, takeWhile_append_stop (isAlphanum_mark m),
      dropWhile_append_stop (isAlphanum_mark m), List.cons_append]
    rw [ih (by omega)]
    rfl
  | case5 start c s hm hc ha ih =>
    rw [List.length_cons] at hn
    rw [List.cons_append, tokensFrom]
    simp only [hm, hc, ha, ih (by omega)]
    rfl

/-! ### Sums behind an operator -/

section

variable {w v : List Lexeme} {a b : Tree Numeral} {op : Binary}

theorem Tree.weight_binary (op : Binary) (a b : Tree Numeral) :
    (Tree.binary op a b).weight = a.weight + b.weight + 1 := by
  cases op <;> rfl

/-- A power behind an operator of a product goes to the last term of the sum. -/
theorem Derives.joined_power {m : Mark} (hop : Binary.ofProductMark? m = some op) (h : Derives .sum w a)
    (h' : Derives .power v b) :
    ∃ t, Derives .sum (w ++ .mark m :: v) t ∧ t.weight = a.weight + b.weight + 1 := by
  cases h with
  | summand h => exact ⟨_, .summand (.product hop h h'), Tree.weight_binary op a b⟩
  | @sum _ _ s t _ root hroot h h'' =>
    refine ⟨.binary root s (.binary op t b), ?_, ?_⟩
    · rw [List.append_assoc]
      exact .sum hroot h (.product hop h'' h')
    · simp only [Tree.weight_binary]
      omega

/-- The first factor of a term goes where its operator puts it, and the others follow. -/
theorem Derives.joined_term {w v : List Lexeme} {a b : Tree Numeral} {op : Binary} (hop : op ≠ .pow)
    (h : Derives .sum w a) (h' : Derives .term v b) :
    ∃ t, Derives .sum (w ++ .mark op.mark :: v) t ∧ t.weight = a.weight + b.weight + 1 := by
  cases hleft : op.left with
  | sum => exact ⟨_, .sum (Binary.ofSumMark?_mark hleft) h h', Tree.weight_binary op a b⟩
  | term =>
    cases h' with
    | factor h' => exact h.joined_power (Binary.ofProductMark?_mark hleft) h'
    | product hop' h₁ h₂ =>
      obtain ⟨s, hs, hweight⟩ := h.joined_term hop h₁
      obtain ⟨t, ht, hweight'⟩ := hs.joined_power hop' h₂
      refine ⟨t, ?_, ?_⟩
      · rwa [List.append_assoc] at ht
      · rw [hweight', hweight, Tree.weight_binary]
        omega
  | power | signed | operand => cases op <;> first | exact absurd rfl hop | cases hleft

theorem Derives.joined {w v : List Lexeme} {a b : Tree Numeral} {op : Binary} (hop : op ≠ .pow)
    (h : Derives .sum w a) (h' : Derives .sum v b) :
    ∃ t, Derives .sum (w ++ .mark op.mark :: v) t ∧ t.weight = a.weight + b.weight + 1 := by
  cases h' with
  | summand h' => exact h.joined_term hop h'
  | sum hop' h₁ h₂ =>
    obtain ⟨s, hs, hweight⟩ := h.joined hop h₁
    have ht := hs.sum hop' h₂
    rw [List.append_assoc] at ht
    refine ⟨_, ht, ?_⟩
    · rw [Tree.weight_binary, Tree.weight_binary, hweight]
      omega

end

/-! ### Evaluation -/

section

variable {α : Type} [Arithmetic α] {u v : List Char} {a b : Tree Numeral} {op : Binary}

theorem readSum_before_closing (h : Derives .sum (lexemes u) a) (hn : nesting (lexemes u) < nestingLimit)
    (rest : List Char) : readSum nestingLimit (tokens (u ++ ')' :: rest)) =
      some ⟨a, [], ⟨.mark .closing, u.length⟩ :: tokensFrom (u.length + 1) rest⟩ := by
  have htokens : tokens (u ++ ')' :: rest) =
      tokens u ++ ⟨.mark .closing, u.length⟩ :: tokensFrom (u.length + 1) rest :=
    tokensFrom_append_mark (Nat.zero_add _) .closing rest
  have htakes := h.takes (n := nestingLimit - 1) rfl (Nat.le_sub_one_of_lt hn)
    (Phrase.stops_mark (m := .closing) rfl u.length (tokensFrom (u.length + 1) rest))
  rw [htokens]
  exact readSum_eq_some_iff.mpr ⟨htakes, rfl⟩

/-- A text without an issue keeps its value in front of a closing bracket and everything behind it. Without the
bracket an operator is applied to what follows, which changes the values of the text. -/
theorem evaluate_stray_closing (hu : Parsed.ofChars? u = some ⟨a, []⟩) (hv : Parsed.ofChars? v = some ⟨b, []⟩)
    (hop : op ≠ .pow) (p : Point α) :
    (∀ rest, evaluate (u ++ ')' :: rest) p =
      .ok ⟨(a.map Arithmetic.numeral).eval p, [.unexpected [')'] u.length]⟩) ∧
    ∃ t, Derives .sum (lexemes (u ++ op.mark.char :: v)) t ∧
      evaluate (u ++ op.mark.char :: v) p = .ok ⟨(t.map Arithmetic.numeral).eval p, []⟩ ∧
      ¬SameValues (u ++ ')' :: op.mark.char :: v) (u ++ op.mark.char :: v) := by
  obtain ⟨hdu, hnu⟩ := ofCharsWithin?_clean_iff.mp hu
  obtain ⟨hdv, hnv⟩ := ofCharsWithin?_clean_iff.mp hv
  obtain ⟨t, ht, hweight⟩ := hdu.joined hop hdv
  have hnesting : nesting (lexemes u ++ .mark op.mark :: lexemes v) < nestingLimit := by
    rw [(hdu.closed.joinOp hdv.closed op).nesting]
    exact max_lt hnu hnv
  rw [← lexemes_append_mark] at ht hnesting
  refine ⟨fun rest => evaluate_of_readSum (readSum_before_closing hdu hnu rest), t, ht, ?_, fun hsame => ?_⟩
  · rw [ht.evaluate p, if_pos hnesting]
  · have hread := (ht.readSum nestingLimit).trans (if_pos hnesting)
    have hsome : some a.weight = some t.weight := by
      have heq := hsame.weight
      rwa [readSum_before_closing hdu hnu, hread] at heq
    have heq : a.weight = t.weight := Option.some.inj hsome
    omega

theorem evaluate_stray_closing_sum :
    Parsed.ofChars? ['1'] = some ⟨.literal ⟨1, 0⟩, []⟩ ∧ Parsed.ofChars? ['2'] = some ⟨.literal ⟨2, 0⟩, []⟩ ∧
    (∀ rest, evaluate ('1' :: ')' :: rest) (⟨0.0, 0.0, 0.0⟩ : Point Float) = .ok ⟨1.0, [.unexpected [')'] 1]⟩) ∧
    ¬SameValues "1)+2".toList "1+2".toList := by
  have hu : Parsed.ofChars? ['1'] = some ⟨.literal ⟨1, 0⟩, []⟩ := by decide +kernel
  have hv : Parsed.ofChars? ['2'] = some ⟨.literal ⟨2, 0⟩, []⟩ := by decide +kernel
  have hone : (Arithmetic.one : Float) = 1.0 := by decide +kernel
  have hop : Binary.add ≠ .pow := by decide
  obtain ⟨hends, _, -, -, hsame⟩ := evaluate_stray_closing hu hv hop (⟨0.0, 0.0, 0.0⟩ : Point Float)
  rw [← hone]
  exact ⟨hu, hv, hends, hsame⟩

/-- Behind the bracket the sum is lost. -/
theorem sum_lost_behind_closing :
    (evaluate "1".toList (⟨0.0, 0.0, 0.0⟩ : Point Float)).map (·.issues) = .ok [] ∧
    (evaluate "2".toList (⟨0.0, 0.0, 0.0⟩ : Point Float)).map (·.issues) = .ok [] ∧
    (evaluate "1)+2".toList (⟨0.0, 0.0, 0.0⟩ : Point Float)).map (·.value) = .ok 1.0 ∧
    (evaluate "1+2".toList (⟨0.0, 0.0, 0.0⟩ : Point Float)).map (·.value) = .ok 3.0 ∧
    (1.0 : Float) ≠ 3.0 := by
  decide +kernel

end

end FieldPlot.Expression
