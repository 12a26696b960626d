import FieldPlot.Expression.Double
import FieldPlot.Expression.Formula
import FieldPlot.Proofs.Expression.Completeness
import FieldPlot.Proofs.Expression.Lexemes
import FieldPlot.Proofs.Expression.Progress
import FieldPlot.Proofs.Expression.Soundness
import FieldPlot.Proofs.Outcome

/-! Evaluation against the grammar. What is evaluated without an issue is derived and has the value of
its derivation; the one thing that keeps a derived text from its value is nesting. -/

namespace FieldPlot.Expression

variable {α : Type} [Arithmetic α]

theorem Derives.ofChars? {s : List Char} {a : Tree Numeral} (h : Derives .sum (lexemes s) a) :
    Parsed.ofChars? s = if nesting (lexemes s) < nestingLimit then some ⟨a, []⟩ else none := by
  rw [Parsed.ofChars?, Parsed.ofCharsWithin?, h.readSum nestingLimit, ← lexemes]
  by_cases hn : nesting (lexemes s) < nestingLimit
  · rw [if_pos hn, if_pos hn]
    rfl
  · rw [if_neg hn, if_neg hn]
    rfl

theorem Derives.evaluate {s : List Char} {a : Tree Numeral} (h : Derives .sum (lexemes s) a)
    (p : Point α) :
    evaluate s p = if nesting (lexemes s) < nestingLimit
      then .ok ⟨(a.map Arithmetic.numeral).eval p, []⟩ else .error .nestedTooDeep := by
  rw [Expression.evaluate, h.ofChars?]
  by_cases hn : nesting (lexemes s) < nestingLimit
  · rw [if_pos hn, if_pos hn]
    rfl
  · rw [if_neg hn, if_neg hn]

theorem Reading.of_finish_clean {r : Reading} (h : r.finish = []) : r.issues = [] ∧ r.rest = [] := by
  cases hr : r.rest with
  | nil => exact ⟨by simpa [Reading.finish, hr] using h, rfl⟩
  | cons t ts => simp [Reading.finish, hr] at h

theorem derives_of_clean {limit : Nat} {s : List Char} {e : Parsed}
    (h : Parsed.ofCharsWithin? limit s = some e) (he : e.issues = []) : Derives .sum (lexemes s) e.tree := by
  obtain ⟨r, hr, rfl⟩ := Option.map_eq_some_iff.mp h
  obtain ⟨hiss, hrest⟩ := Reading.of_finish_clean he
  obtain ⟨us, hu, hd⟩ := readSum_sound _ _ r (scanned_tokensFrom 0 s) hr hiss
  rw [hrest, List.append_nil] at hu
  rwa [← hu] at hd

/-- Without an issue a text is read as the tree it is derived with. -/
theorem ofCharsWithin?_clean_iff {limit : Nat} {s : List Char} {a : Tree Numeral} :
    Parsed.ofCharsWithin? limit s = some ⟨a, []⟩ ↔ Derives .sum (lexemes s) a ∧ nesting (lexemes s) < limit := by
  constructor
  · intro h
    have hd : Derives .sum (lexemes s) a := derives_of_clean h rfl
    refine ⟨hd, ?_⟩
    by_contra hn
    rw [Parsed.ofCharsWithin?, hd.readSum limit, ← lexemes, if_neg hn] at h
    cases h
  · rintro ⟨hd, hn⟩
    rw [Parsed.ofCharsWithin?, hd.readSum limit, ← lexemes, if_pos hn]
    rfl

theorem evaluate_eq_ok {s : List Char} {p : Point α} {e : Evaluation α}
    (h : evaluate s p = .ok e) :
    ∃ parsed, Parsed.ofChars? s = some parsed ∧ e = ⟨parsed.value p, parsed.issues⟩ := by
  cases hs : Parsed.ofChars? s with
  | none => simp [evaluate, hs] at h
  | some parsed =>
    simp only [evaluate, hs, Except.ok.injEq] at h
    exact ⟨parsed, rfl, h.symm⟩

theorem returns_evaluate (s : List Char) (p : Point α) :
    Returns (evaluate s p) ↔ (Parsed.ofChars? s).isSome = true := by
  cases hs : Parsed.ofChars? s <;> simp [Returns, evaluate, hs]

theorem evaluate_returns {s : List Char} (h : openings (tokens s) < nestingLimit) (p : Point α) :
    ∃ e, evaluate s p = .ok e := by
  obtain ⟨r, hr⟩ := readSum_answers nestingLimit _ h (tokens s) le_rfl
  exact ⟨⟨Parsed.value ⟨r.tree, r.finish⟩ p, r.finish⟩,
    by simp [evaluate, Parsed.ofChars?, Parsed.ofCharsWithin?, hr]⟩

/-- A text that is derived from the grammar has the value of its derivation and no issue, unless its
brackets are nested beyond the limit. Every other text has an issue, wherever evaluating it gives a
result, which it does unless as many brackets are opened as the limit allows levels. -/
theorem evaluate_grammar (s : List Char) (p : Point α) :
    (∀ a, Derives .sum (lexemes s) a → evaluate s p =
      if nesting (lexemes s) < nestingLimit then .ok ⟨(a.map Arithmetic.numeral).eval p, []⟩
      else .error .nestedTooDeep) ∧
    (∀ e, evaluate s p = .ok e → (e.issues = [] ↔ ∃ a, Derives .sum (lexemes s) a)) ∧
    (openings (tokens s) < nestingLimit → ∃ e, evaluate s p = .ok e) := by
  refine ⟨fun a h => h.evaluate p, fun e he => ⟨fun hi => ?_, ?_⟩, fun h => evaluate_returns h p⟩
  · obtain ⟨parsed, hs, rfl⟩ := evaluate_eq_ok he
    exact ⟨parsed.tree, derives_of_clean hs hi⟩
  · rintro ⟨a, h⟩
    rw [h.evaluate p] at he
    by_cases hn : nesting (lexemes s) < nestingLimit
    · rw [if_pos hn] at he
      obtain rfl := Except.ok.inj he
      rfl
    · rw [if_neg hn] at he
      exact absurd he (by simp)

/-- The variable `x` in `n` pairs of brackets. -/
def bracketed : (n : Nat) → List Char
  | 0 => ['x']
  | n + 1 => '(' :: bracketed n ++ [')']

theorem lexemes_bracketed_succ (n : Nat) :
    lexemes (bracketed (n + 1)) = .mark .opening :: lexemes (bracketed n) ++ [.mark .closing] :=
  lexemes_brackets (bracketed n)

theorem lexemes_bracketed_zero : lexemes (bracketed 0) = [.name ['x']] := by
  rw [bracketed, lexemes_cons_name rfl rfl rfl, List.takeWhile_nil, List.dropWhile_nil, lexemes_nil]

theorem derives_bracketed (n : Nat) : Derives .sum (lexemes (bracketed n)) (.var .x) := by
  induction n with
  | zero =>
    rw [lexemes_bracketed_zero]
    exact .summand (.factor (.base (.unsigned (.name rfl))))
  | succ n ih =>
    rw [lexemes_bracketed_succ]
    exact .summand (.factor (.base (.unsigned (.group ih))))

theorem nesting_bracketed (n : Nat) : nesting (lexemes (bracketed n)) = n := by
  induction n with
  | zero => rw [lexemes_bracketed_zero]; rfl
  | succ n ih => rw [lexemes_bracketed_succ, (derives_bracketed n).closed.bracket.nesting, ih]

/-- Three thousand pairs of brackets around a variable are derived from the grammar, but they have no
value in doubles. -/
theorem evaluate_bracketed_fails : Derives .sum (lexemes (bracketed 3000)) (.var .x) ∧
    evaluate (bracketed 3000) (⟨1.0, 0.0, 0.0⟩ : Point Float) = .error .nestedTooDeep := by
  have h := derives_bracketed 3000
  refine ⟨h, ?_⟩
  rw [h.evaluate, nesting_bracketed, if_neg (by decide)]

end FieldPlot.Expression
