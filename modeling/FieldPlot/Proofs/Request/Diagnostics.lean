import FieldPlot.Proofs.Expression.OnePass
import FieldPlot.Proofs.Request.Acceptance

/-! What the issues of a strict submission tell. A function is submitted with the issues of its evaluation;
the components of a field are not checked, so that its request has no issues whatever they look like. -/

namespace FieldPlot

namespace Expression

variable {α : Type} [Arithmetic α]

theorem evaluate_of_check {s : List Char} {issues : List Issue} (hs : Text.trim s ≠ [])
    (h : check s = .ok issues) (p : Point α) : ∃ v, evaluate s p = .ok ⟨v, issues⟩ := by
  rw [check_eq s p, if_neg (by simpa using hs)] at h
  cases he : evaluate s p with
  | error f =>
    rw [he] at h
    cases h
  | ok e =>
    rw [he] at h
    obtain rfl := Except.ok.inj h
    exact ⟨e.value, rfl⟩

/-- What is read without an issue is derived from the grammar, within the nesting that can be read. -/
theorem evaluate_clean_iff (s : List Char) (p : Point α) : (∃ v, evaluate s p = .ok ⟨v, []⟩) ↔
    ∃ a, Derives .sum (lexemes s) a ∧ nesting (lexemes s) < nestingLimit := by
  constructor
  · rintro ⟨v, hv⟩
    obtain ⟨parsed, hparsed, he⟩ := evaluate_eq_ok hv
    obtain ⟨tree, issues⟩ := parsed
    obtain rfl : issues = [] := (Evaluation.mk.inj he).2.symm
    exact ⟨tree, ofCharsWithin?_clean_iff.mp hparsed⟩
  · rintro ⟨a, ha, hnesting⟩
    rw [ha.evaluate p, if_pos hnesting]
    exact ⟨_, rfl⟩

end Expression

namespace Request

open Expression (Arithmetic Derives Issue check evaluate lexemes nesting nestingLimit)

section

variable {α : Type} [Arithmetic α] {r : Request}

/-- Every text that is evaluated is read without an issue. -/
def ReadsCleanly (r : Request) (p : Point α) : Prop :=
  ∀ s ∈ r.texts, ∃ v, evaluate s p = .ok ⟨v, []⟩

theorem readsCleanly_iff (r : Request) (p : Point α) : r.ReadsCleanly p ↔
    ∀ s ∈ r.texts, ∃ a, Derives .sum (lexemes s) a ∧ nesting (lexemes s) < nestingLimit :=
  forall₂_congr fun s _ => Expression.evaluate_clean_iff s p

theorem issues_of_function (hfunction : r.field = none) (p : Point α) {v : α}
    (hv : evaluate r.expression p = .ok ⟨v, r.issues⟩) : r.issues = [] ↔ r.ReadsCleanly p := by
  have htexts : r.texts = [r.expression] := by rw [texts, hfunction]
  rw [ReadsCleanly, htexts, List.forall_mem_singleton, hv]
  constructor
  · intro h
    exact ⟨v, by rw [h]⟩
  · rintro ⟨w, hw⟩
    exact (Expression.Evaluation.mk.inj (Except.ok.inj hw)).2

end

section

variable {α : Type} [Scalar α] {o : Options α} {s text : List Char} {r : Request}

theorem ofField_issues {field : Vectors.Components} (h : ofField o s field = .ok r) : r.issues = [] := by
  unfold ofField at h
  obtain ⟨_, -, h⟩ := bind_eq_ok.mp h
  split at h
  all_goals
    obtain ⟨_, -, h⟩ := bind_eq_ok.mp h
    obtain rfl := pure_eq_ok.mp h
    rfl

theorem ofFunction_issues {issues : List Issue} (h : ofFunction o s issues = .ok r) :
    r.issues = issues := by
  unfold ofFunction at h
  split at h
  all_goals
    obtain ⟨_, -, h⟩ := bind_eq_ok.mp h
    obtain ⟨_, -, h⟩ := bind_eq_ok.mp h
    obtain rfl := pure_eq_ok.mp h
    rfl

theorem trim_ne_nil_of_strict (hstrict : o.strict = true) {entries : List Entry}
    (h : ofExpression o text = (.ok r, entries)) : Text.trim text ≠ [] := by
  intro hblank
  simp [ofExpression, hstrict, hblank] at h

variable [Arithmetic α]

/-- A function that is accepted strictly has the issues of its evaluation, at every point; a field has
none. Thus no issues mean a clean reading exactly for the functions and for the fields whose components are
derived from the grammar within the nesting limit. -/
theorem strict_issues (hstrict : o.strict = true) {entries : List Entry}
    (h : ofExpression o text = (.ok r, entries)) :
    (r.field = none → ∀ p : Point α, ∃ v, evaluate r.expression p = .ok ⟨v, r.issues⟩) ∧
    (r.field ≠ none → r.issues = []) ∧
    ∀ p : Point α, (r.issues = [] ↔ r.ReadsCleanly p) ↔
      (r.field = none ∨
        ∀ s ∈ r.texts, ∃ a, Derives .sum (lexemes s) a ∧ nesting (lexemes s) < nestingLimit) := by
  have hblank : Text.trim (Text.trim text) ≠ [] :=
    mt Text.eq_nil_of_trim_trim (trim_ne_nil_of_strict hstrict h)
  cases accepts_of_ok h with
  | field hfield h =>
    obtain ⟨-, hsome⟩ := ofField_eq_ok h
    have hissues := ofField_issues h
    have hne : r.field ≠ none := by
      rw [hsome]
      exact Option.some_ne_none _
    refine ⟨fun hnone => absurd hnone hne, fun _ => hissues, fun p => ?_⟩
    rw [← readsCleanly_iff r p, or_iff_right hne]
    exact ⟨fun h => h.mp hissues, fun h => iff_of_true hissues h⟩
  | function htrial h =>
    obtain ⟨hexpression, hnone, -⟩ := ofFunction_eq_ok h
    have hvalue : ∀ p : Point α, ∃ v, evaluate r.expression p = .ok ⟨v, r.issues⟩ := by
      intro p
      rw [hexpression, ofFunction_issues h]
      exact Expression.evaluate_of_check hblank (htrial hstrict) p
    refine ⟨fun _ => hvalue, fun hne => absurd hnone hne, fun p => ?_⟩
    obtain ⟨v, hv⟩ := hvalue p
    exact iff_of_true (issues_of_function hnone p hv) (.inl hnone)

end

/-- A function keeps its issue, and a rotation that has none is read cleanly. -/
theorem strict_issues_rotation :
    (∃ r, ofExpression ({ strict := true } : Options ℚ) "y*i - x*j".toList = (.ok r, []) ∧
      ∀ p : Point ℚ, (r.issues = [] ↔ r.ReadsCleanly p)) ∧
    ∃ r entries, ofExpression ({ strict := true } : Options ℚ) "2*foo".toList = (.ok r, entries) ∧
      ∀ p : Point ℚ, ∃ v, evaluate r.expression p = .ok ⟨v, [.unknownName "foo".toList 2]⟩ := by
  constructor
  · let r : Request := ⟨"y*i - x*j".toList, some ⟨some ['y'], some ['-', 'x'], none⟩, false, .function,
      .magnitude, false, true, []⟩
    have hr : ofExpression ({ strict := true } : Options ℚ) "y*i - x*j".toList = (.ok r, []) := by
      decide +kernel
    have hy : Expression.Parsed.ofChars? ['y'] = some ⟨.var .y, []⟩ := by decide +kernel
    have hx : Expression.Parsed.ofChars? ['-', 'x'] = some ⟨.negate (.var .x), []⟩ := by decide +kernel
    have hclean : ∀ p : Point ℚ, r.ReadsCleanly p := by
      intro p s hs
      rcases List.mem_pair.mp hs with rfl | rfl
      · exact ⟨_, by rw [evaluate, hy]⟩
      · exact ⟨_, by rw [evaluate, hx]⟩
    exact ⟨r, hr, fun p => ((strict_issues rfl hr).2.2 p).mpr (.inr ((readsCleanly_iff r p).mp (hclean p)))⟩
  · let r : Request := ⟨"2*foo".toList, none, false, .function, .none, false, true,
      [.unknownName "foo".toList 2]⟩
    have hr : (ofExpression ({ strict := true } : Options ℚ) "2*foo".toList).1 = .ok r := by
      decide +kernel
    exact ⟨r, _, Prod.ext hr rfl, fun p => (strict_issues rfl (Prod.ext hr rfl)).1 rfl p⟩

/-- A field is accepted without issues though its component is a name that stands for nothing. -/
theorem unknown_component_accepted :
    ∃ r, ofExpression ({ strict := true } : Options Float) "foo*i".toList = (.ok r, []) ∧ r.issues = [] ∧
      r.texts = ["foo".toList] ∧
      evaluate "foo".toList (⟨1.0, 1.0, 1.0⟩ : Point Float) = .ok ⟨0.0, [.unknownName "foo".toList 0]⟩ ∧
      ¬ (r.issues = [] ↔ r.ReadsCleanly (⟨1.0, 1.0, 1.0⟩ : Point Float)) := by
  let r : Request := ⟨"foo*i".toList, some ⟨some "foo".toList, none, none⟩, false, .function,
    .magnitude, false, true, []⟩
  have hr : ofExpression ({ strict := true } : Options Float) "foo*i".toList = (.ok r, []) := by
    decide +kernel
  have hfoo : Expression.Parsed.ofChars? "foo".toList =
      some ⟨.zero, [.unknownName "foo".toList 0]⟩ := by decide +kernel
  have hzero : (Arithmetic.zero : Float) = 0.0 := by decide +kernel
  have hvalue : evaluate "foo".toList (⟨1.0, 1.0, 1.0⟩ : Point Float) =
      .ok ⟨0.0, [.unknownName "foo".toList 0]⟩ := by
    rw [evaluate, hfoo, ← hzero]
    rfl
  refine ⟨r, hr, rfl, rfl, hvalue, fun h => ?_⟩
  obtain ⟨v, hv⟩ := h.mp rfl "foo".toList (List.mem_singleton_self _)
  rw [hvalue] at hv
  cases hv

end Request

end FieldPlot
