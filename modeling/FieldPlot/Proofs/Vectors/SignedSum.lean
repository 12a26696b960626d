import FieldPlot.Proofs.Scalar.Exact
import FieldPlot.Proofs.Expression.WellFormed
import FieldPlot.Proofs.Vectors.Gathering
import FieldPlot.Vectors.Formula

/-! Signed sums of unit vector terms. A minus in front of a coefficient is read as the sign of its first
operand, which is not its negation where that operand is raised or has a sign of its own. -/

namespace FieldPlot.Vectors

open Expression

section

variable {α : Type} [Arithmetic α]

theorem formula_value_of_derives {s : List Char} {a : Expression.Tree Numeral}
    (h : Derives .sum (lexemes s) a) (p : Point α) : (Formula.ofChars s).value p =
      if nesting (lexemes s) < nestingLimit then .ok (a.value p) else .error .nestedTooDeep := by
  rw [Formula.ofChars, Formula.value, h.ofChars?]
  by_cases hn : nesting (lexemes s) < nestingLimit
  · rw [if_pos hn, if_pos hn]
    rfl
  · rw [if_neg hn, if_neg hn]
    rfl

theorem Carries.formula_value {t : SignedTerm} {x : List Char} (h : Carries t x)
    {a : Expression.Tree Numeral} {r : Tail} (hleads : Leads (lexemes t.coefficient) t.own a r)
    (p : Point α) : (Formula.ofChars x).value p =
      if nesting (lexemes t.coefficient) < nestingLimit
      then .ok ((r.around (t.effective.apply a)).value p) else .error .nestedTooDeep := by
  obtain ⟨s, hs, rfl⟩ := h
  have hlexemes : lexemes ((s.chars ++ t.body).dropWhile Text.isBlank) =
      s.lexemes ++ lexemes t.body := by
    rw [lexemes_dropWhile_blank, lexemes_sign_append]
  rw [t.lexemes_eq] at hleads ⊢
  have hderives := (hleads.exchange s).derives
  rw [← hlexemes] at hderives
  rw [formula_value_of_derives (.summand hderives), hlexemes, nesting_sign_append,
    nesting_sign_append, hs]

theorem effective_of_positive {t : SignedTerm} (h : t.isNegative = false)
    (a : Expression.Tree Numeral) : t.effective.apply a = t.own.apply a := by
  rw [SignedTerm.effective]
  by_cases hown : t.own = .absent
  · rw [if_pos hown, hown, SignedTerm.sign, h]
    rfl
  · rw [if_neg hown]

theorem SignedTerm.formula_value (t : SignedTerm) (p : Point α) :
    (Formula.ofChars t.coefficient).value p = if nesting (lexemes t.coefficient) < nestingLimit
      then .ok (t.tree.value p) else .error .nestedTooDeep :=
  formula_value_of_derives (.summand t.derives) p

theorem effective_of_bare (hfactors : SignedFactors α) {t : SignedTerm} {a : Expression.Tree Numeral}
    {r : Tail} (hleads : Leads (lexemes t.coefficient) t.own a r) (hown : t.own = .absent)
    (hbare : r.exponent = none) (hnegative : t.isNegative = true) (p : Point α) :
    (r.around (t.effective.apply a)).value p =
      Arithmetic.neg ((r.around (t.own.apply a)).value p) := by
  obtain ⟨u, w, -, -, htail⟩ := hleads
  rw [SignedTerm.effective, if_pos hown, hown, SignedTerm.sign, hnegative]
  exact htail.value_around_negate hfactors hbare p a

section

variable [Scalar α]

/-- The value of the component of an axis. -/
def Components.valueAt (f : Components) (p : Point α) (axis : Axis) : Except Fault α :=
  FieldFormula.componentValue ((f.get axis).map Formula.ofChars) p

theorem Components.value_eq (f : Components) (p : Point α) : (FieldFormula.ofComponents f).value p =
    (do return ⟨← f.valueAt p .x, ← f.valueAt p .y, ← f.valueAt p .z⟩) :=
  rfl

theorem Components.valueAt_some {f : Components} {axis : Axis} {x : List Char}
    (h : f.get axis = some x) (p : Point α) : f.valueAt p axis = (Formula.ofChars x).value p := by
  rw [valueAt, h]
  rfl

theorem Components.valueAt_none {f : Components} {axis : Axis} (h : f.get axis = .none)
    (p : Point α) : f.valueAt p axis = .ok 0.0 := by
  rw [valueAt, h]
  rfl

/-- Every term of a signed sum gives its axis a value, and the other axes are zero. A minus is read as
the sign of the first operand of the coefficient, and is lost if that operand has a sign itself. So it
negates the coefficient if the first operand has neither a sign nor an exponent; an exponent is taken of
the negated operand. -/
theorem signedSum_value (hfactors : SignedFactors α) (convention : Convention)
    (ts : List SignedTerm) (hts : ts ≠ []) (haxes : (ts.map SignedTerm.axis).Nodup) (s : List Char)
    (hs : Spells convention ts s) (p : Point α) :
    ∃ f, decompose convention s = (some f, []) ∧
      (FieldFormula.ofComponents f).value p =
        (do return ⟨← f.valueAt p .x, ← f.valueAt p .y, ← f.valueAt p .z⟩) ∧
      (∀ axis, axis ∉ ts.map SignedTerm.axis → f.valueAt p axis = .ok 0.0) ∧
      ∀ t ∈ ts, ∃ a r, Leads (lexemes t.coefficient) t.own a r ∧ t.tree = r.around (t.own.apply a) ∧
        (f.valueAt p t.axis = if nesting (lexemes t.coefficient) < nestingLimit
          then .ok ((r.around (t.effective.apply a)).value p) else .error .nestedTooDeep) ∧
        (t.isNegative = false ∨ t.own ≠ .absent →
          f.valueAt p t.axis = (Formula.ofChars t.coefficient).value p) ∧
        (t.isNegative = true → t.own = .absent → r.exponent = none →
          f.valueAt p t.axis = ((Formula.ofChars t.coefficient).value p).map Arithmetic.neg) := by
  obtain ⟨f, hdecompose, hset, hrest⟩ := decompose_spelled hts haxes hs
  refine ⟨f, hdecompose, f.value_eq p, fun axis haxis => Components.valueAt_none (hrest axis haxis) p,
    ?_⟩
  intro t ht
  obtain ⟨x, hx, hget⟩ := hset t ht
  obtain ⟨a, r, hleads, htree⟩ := t.leads
  have hvalue := (Components.valueAt_some hget p).trans (hx.formula_value hleads p)
  refine ⟨a, r, hleads, htree, hvalue, ?_, ?_⟩
  · intro hplain
    have heffective : t.effective.apply a = t.own.apply a := by
      rcases hplain with hpositive | hown
      · exact effective_of_positive hpositive a
      · rw [SignedTerm.effective, if_neg hown]
    rw [hvalue, t.formula_value, htree, heffective]
  · intro hnegative hown hbare
    rw [hvalue, t.formula_value, htree, effective_of_bare hfactors hleads hown hbare hnegative]
    by_cases hn : nesting (lexemes t.coefficient) < nestingLimit
    · rw [if_pos hn, if_pos hn]
      rfl
    · rw [if_neg hn, if_neg hn]
      rfl

end

end

-- A sign behind a blank is cut off together with what follows it, so that the factor `x` is lost.
example : hasLooseSign 0 none "x*\t-y".toList = true ∧
    decompose .ijk "x*\t-y*i".toList = (some ⟨some "-y".toList, none, none⟩, []) := by
  decide +kernel

def letter : Variable → Char
  | .x => 'x'
  | .y => 'y'
  | .z => 'z'

theorem lexemes_letter (v : Variable) : lexemes [letter v] = [.name [letter v]] := by
  cases v <;>
    rw [letter, lexemes_cons_name rfl rfl rfl, List.takeWhile_nil, List.dropWhile_nil, lexemes_nil]

def letterTerm (isNegative : Bool) (v : Variable) (axis : Axis) : SignedTerm where
  isNegative := isNegative
  coefficient := [letter v]
  tree := .var v
  axis := axis
  derives := by
    rw [lexemes_letter]
    cases v <;> exact .factor (.base (.unsigned (.name rfl)))
  tight := by
    refine hasLooseSign_of_scanned (fun c hc => ?_) 0 rfl
    rw [List.mem_singleton.mp hc]
    cases v <;> rfl

theorem letterTerm_value {α : Type} [Arithmetic α] (isNegative : Bool) (v : Variable) (axis : Axis)
    (p : Point α) :
    (Formula.ofChars (letterTerm isNegative v axis).coefficient).value p = .ok (v.value p) := by
  have hlexemes : lexemes (letterTerm isNegative v axis).coefficient = [.name [letter v]] :=
    lexemes_letter v
  have hnesting : nesting [.name [letter v]] < nestingLimit := by
    show 0 < nestingLimit
    decide
  rw [SignedTerm.formula_value, hlexemes, if_pos hnesting]
  rfl

/-- A rotation has the first variable, negated, for its second component. -/
theorem signedSum_value_rotation : ∃ f, decompose .ijk "y*i - x*j".toList = (some f, []) ∧
    (FieldFormula.ofComponents f).value (⟨1, 2, 0⟩ : Point ℚ) = .ok ⟨2, -1, 0⟩ := by
  have hfactors : SignedFactors ℚ := ⟨neg_mul, fun a b => neg_div b a⟩
  obtain ⟨f, hdecompose, hvalue, hzero, hterms⟩ := signedSum_value hfactors .ijk
    [letterTerm false .y .x, letterTerm true .x .y] (by simp) (by decide) "y*i - x*j".toList
    (.inr (by decide)) (⟨1, 2, 0⟩ : Point ℚ)
  refine ⟨f, hdecompose, ?_⟩
  obtain ⟨_, _, _, _, _, hx, -⟩ := hterms (letterTerm false .y .x) (by simp)
  obtain ⟨_, _, hleads, _, _, -, hy⟩ := hterms (letterTerm true .x .y) (by simp)
  have hlexemes : lexemes (letterTerm true .x .y).coefficient = [.name ['x']] := lexemes_letter .x
  rw [hlexemes] at hleads
  have hx := (hx (.inl rfl)).trans (letterTerm_value ..)
  have hy := hy rfl rfl hleads.bare_of_singleton
  rw [letterTerm_value] at hy
  have hz := hzero .z (by decide)
  rw [Scalar.literal_zero] at hz
  rw [hvalue]
  change f.valueAt _ .x = _ at hx
  change f.valueAt _ .y = _ at hy
  rw [hx, hy, hz]
  rfl

theorem lexemes_square :
    lexemes ['x', '^', '2'] = [.name ['x'], .mark .power, .number ['2']] := by
  have hx : lexemes ['x'] = [.name ['x']] := lexemes_letter .x
  have htwo : lexemes ['2'] = [.number ['2']] := by
    rw [lexemes_cons_number rfl rfl, List.takeWhile_nil, List.dropWhile_nil, lexemes_nil]
  have hsquare := lexemes_append_mark ['x'] .power ['2']
  rwa [hx, htwo] at hsquare

/-- A minus in front of a square is squared with it: both the square and its component are 4. -/
theorem minus_square_lost : ∃ f, decompose .ijk "y*i - x^2*j".toList = (some f, []) ∧
    f.valueAt (⟨2, 3, 0⟩ : Point ℚ) .y = .ok 4 ∧
    (Formula.ofChars "x^2".toList).value (⟨2, 3, 0⟩ : Point ℚ) = .ok 4 := by
  have hx : Derives .operand [.name ['x']] (.var .x) := .name rfl
  have htwo : Derives .signed [.number ['2']] (.literal (decimal ['2'])) :=
    .unsigned (.number (fun c hc => by rw [List.mem_singleton.mp hc]; rfl)
      ⟨'2', List.mem_singleton_self _, rfl⟩ (by decide))
  have hminus : lexemes ['-', 'x', '^', '2'] = .mark .minus :: lexemes ['x', '^', '2'] :=
    lexemes_cons_mark rfl
  refine ⟨⟨some ['y'], some ['-', 'x', '^', '2'], .none⟩, by decide +kernel, ?_, ?_⟩
  · have hderives : Derives .sum (lexemes ['-', 'x', '^', '2'])
        (.binary .pow (.negate (.var .x)) (.literal (decimal ['2']))) := by
      rw [hminus, lexemes_square]
      exact .summand (.factor (.raised (.minus hx) htwo))
    rw [Components.valueAt_some rfl, formula_value_of_derives hderives, hminus, lexemes_square,
      if_pos (by decide)]
    show Except.ok (wholePower (-2) ((2 : ℕ) / 10 ^ 0)) = _
    norm_num [wholePower]
  · have hderives : Derives .sum (lexemes ['x', '^', '2'])
        (.binary .pow (.var .x) (.literal (decimal ['2']))) := by
      rw [lexemes_square]
      exact .summand (.factor (.raised (.unsigned hx) htwo))
    show (Formula.ofChars ['x', '^', '2']).value _ = _
    rw [formula_value_of_derives hderives, lexemes_square, if_pos (by decide)]
    show Except.ok (wholePower 2 ((2 : ℕ) / 10 ^ 0)) = _
    norm_num [wholePower]

end FieldPlot.Vectors
