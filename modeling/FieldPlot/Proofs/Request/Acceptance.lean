import FieldPlot.Proofs.Request.Submission
import FieldPlot.Proofs.Vectors.Bracketed
import FieldPlot.Proofs.Vectors.Openings
import FieldPlot.Proofs.Vectors.SignedSum
import FieldPlot.Scalar.Double

/-! What a strict submission promises. Whether a text can be evaluated is the same at all points, so that
its trial speaks for them; but the components of a field are not tried, and one that is nested too deeply
fails at every point. -/

namespace FieldPlot

namespace Expression

variable {α β : Type} [Arithmetic α] [Arithmetic β] {s : List Char}

theorem returns_value_iff (s : List Char) (p : Point α) (q : Point β) :
    Returns ((Formula.ofChars s).value p) ↔ Returns (evaluate s q) := by
  rw [returns_evaluate]
  cases hs : Parsed.ofChars? s <;> simp [Returns, Formula.ofChars, Formula.value, hs]

theorem returns_of_count {p : Point α} (h : s.count '(' < nestingLimit) : Returns (evaluate s p) :=
  evaluate_returns ((openings_le_count s).trans_lt h) p

theorem returns_of_check {issues : List Issue} (h : check s = .ok issues) (p : Point α) :
    Returns (evaluate s p) := by
  unfold check at h
  split at h
  · next hblank =>
    have hopening : '(' ∉ s := fun hmem =>
      absurd (Text.isBlank_of_trim_eq_nil (List.isEmpty_iff.mp hblank) _ hmem) (by decide)
    rw [← List.count_eq_zero] at hopening
    exact returns_of_count (by rw [hopening]; decide)
  · split at h
    · next hs => exact (returns_evaluate s p).mpr (by rw [hs]; rfl)
    · cases h

end Expression

namespace Request

open Expression (Arithmetic Formula bracketed check evaluate nestingLimit)
open Vectors (Axis Balanced BracketedTerm Components Convention FieldFormula decompose fieldText)

section

variable {α : Type} [Scalar α] [Arithmetic α]

/-- What is plotted has a value at `p`: the function, or every component of the field. -/
def Evaluates (r : Request) (p : Point α) : Prop :=
  match r.field with
  | none => Returns ((Formula.ofChars r.expression).value p)
  | some f => Returns ((FieldFormula.ofComponents f).value p)

/-- The texts that are evaluated. -/
def texts (r : Request) : List (List Char) :=
  match r.field with
  | none => [r.expression]
  | some f => Axis.all.filterMap f.get

theorem returns_valueAt_iff (f : Components) (p : Point α) (axis : Axis) :
    Returns (f.valueAt p axis) ↔ ∀ s, f.get axis = some s → Returns (evaluate s p) := by
  cases h : f.get axis with
  | none => simp [Components.valueAt_none h, Returns.ok]
  | some s => simp [Components.valueAt_some h, Expression.returns_value_iff s p p]

theorem returns_field_iff (f : Components) (p : Point α) :
    Returns ((FieldFormula.ofComponents f).value p) ↔ ∀ axis, Returns (f.valueAt p axis) := by
  rw [f.value_eq]
  constructor
  · rintro ⟨v, hv⟩
    obtain ⟨x, hx, hv⟩ := bind_eq_ok.mp hv
    obtain ⟨y, hy, hv⟩ := bind_eq_ok.mp hv
    obtain ⟨z, hz, -⟩ := bind_eq_ok.mp hv
    intro axis
    cases axis with
    | x => exact ⟨x, hx⟩
    | y => exact ⟨y, hy⟩
    | z => exact ⟨z, hz⟩
  · intro h
    exact (h .x).bind fun _ _ => (h .y).bind fun _ _ => (h .z).bind fun _ _ => .ok _

/-- One point tells for all whether a request can be evaluated. -/
theorem evaluates_iff (r : Request) (p q : Point α) :
    r.Evaluates p ↔ ∀ s ∈ r.texts, Returns (evaluate s q) := by
  unfold Evaluates texts
  split
  · rw [Expression.returns_value_iff _ p q]
    simp
  · next f _ =>
    simp only [returns_field_iff, returns_valueAt_iff, List.mem_filterMap]
    constructor
    · rintro h s ⟨axis, -, hs⟩
      exact (Expression.returns_evaluate s q).mpr ((Expression.returns_evaluate s p).mp (h axis s hs))
    · intro h axis s hs
      have hmem : axis ∈ Axis.all := by cases axis <;> simp [Axis.all]
      exact (Expression.returns_evaluate s p).mpr
        ((Expression.returns_evaluate s q).mp (h s ⟨axis, hmem, hs⟩))

variable {o : Options α} {s text : List Char} {r : Request}

theorem evaluates_of_ofFunction {issues : List Expression.Issue} (htrial : check s = .ok issues)
    (h : ofFunction o s issues = .ok r) (p : Point α) : r.Evaluates p := by
  obtain ⟨hexpression, hnone, -⟩ := ofFunction_eq_ok h
  rw [evaluates_iff r p p, texts, hnone, hexpression]
  intro t ht
  rw [List.mem_singleton.mp ht]
  exact Expression.returns_of_check htrial p

theorem evaluates_of_ofField {convention : Convention} {f : Components}
    (hfield : (decompose convention s).1 = some f) (h : ofField o s f = .ok r)
    (hcount : s.count '(' < nestingLimit) (p : Point α) : r.Evaluates p := by
  obtain ⟨-, hsome⟩ := ofField_eq_ok h
  rw [evaluates_iff r p p, texts, hsome]
  intro t ht
  obtain ⟨axis, -, ht⟩ := List.mem_filterMap.mp ht
  have hopen := Vectors.decompose_openAtMost hfield axis t ht
  exact Expression.returns_of_count (hopen.trans_lt hcount)

theorem evaluates_of_strict (hstrict : o.strict = true) {entries : List Entry}
    (h : ofExpression o text = (.ok r, entries)) (hfunction : r.field = none) (p : Point α) : r.Evaluates p := by
  cases accepts_of_ok h with
  | field hfield h =>
    obtain ⟨-, hsome⟩ := ofField_eq_ok h
    rw [hsome] at hfunction
    cases hfunction
  | function htrial h => exact evaluates_of_ofFunction (htrial hstrict) h p

/-- A function that is accepted strictly can be evaluated everywhere. A request of either kind can where
each of its texts stands a trial, which it does if the whole text opens few brackets. -/
theorem strict_acceptance (hstrict : o.strict = true) {entries : List Entry}
    (h : ofExpression o text = (.ok r, entries)) :
    (r.field = none → ∀ p : Point α, r.Evaluates p) ∧
    (∀ p : Point α, r.Evaluates p ↔
      ∀ s ∈ r.texts, Returns (evaluate s (⟨1.0, 1.0, 1.0⟩ : Point α))) ∧
    (text.count '(' < nestingLimit → ∀ p : Point α, r.Evaluates p) := by
  have hexact := fun p : Point α => evaluates_iff r p ⟨1.0, 1.0, 1.0⟩
  cases accepts_of_ok h with
  | field hfield h =>
    obtain ⟨-, hsome⟩ := ofField_eq_ok h
    have htrim : (Text.trim text).count '(' ≤ text.count '(' := (Text.trim_sublist text).count_le _
    refine ⟨fun hnone => ?_, hexact, fun hcount p => ?_⟩
    · rw [hsome] at hnone
      cases hnone
    · exact evaluates_of_ofField hfield h (htrim.trans_lt hcount) p
  | function htrial h =>
    have hall := evaluates_of_ofFunction (htrial hstrict) h
    exact ⟨fun _ => hall, hexact, fun _ => hall⟩

end

/-- A rotation and a function with a pole have values everywhere. -/
theorem strict_acceptance_rotation :
    (∃ r, ofExpression ({ strict := true } : Options ℚ) "y*i - x*j".toList = (.ok r, []) ∧
      ∀ p : Point ℚ, r.Evaluates p) ∧
    ∃ r, ofExpression ({ strict := true } : Options ℚ) "1/x".toList = (.ok r, []) ∧
      ∀ p : Point ℚ, r.Evaluates p := by
  constructor
  · let r : Request := ⟨"y*i - x*j".toList, some ⟨some ['y'], some ['-', 'x'], none⟩, false, .function,
      .magnitude, false, true, []⟩
    have hr : ofExpression ({ strict := true } : Options ℚ) "y*i - x*j".toList = (.ok r, []) := by
      decide +kernel
    exact ⟨r, hr, (strict_acceptance rfl hr).2.2 (by decide)⟩
  · let r : Request := ⟨"1/x".toList, none, false, .function, .none, false, true, []⟩
    have hr : ofExpression ({ strict := true } : Options ℚ) "1/x".toList = (.ok r, []) := by
      decide +kernel
    exact ⟨r, hr, (strict_acceptance rfl hr).1 rfl⟩

theorem balanced_bracketed (n : Nat) : Balanced (bracketed n) := by
  induction n with
  | zero => exact ⟨fun t ht => (ht.sublist.count_le ')').trans (Nat.zero_le _), rfl⟩
  | succ n ih => exact ih.bracket

theorem space_not_mem_bracketed (n : Nat) : ' ' ∉ bracketed n := by
  induction n with
  | zero => decide
  | succ n ih => simp [bracketed, ih]

/-- The variable `x` in `n + 1` pairs of brackets, along the first axis. -/
def bracketedTerm (n : Nat) : BracketedTerm .ijk where
  isNegative := false
  body := bracketed n
  link := .star
  axis := .x
  written := ['i']
  spaceless := space_not_mem_bracketed n
  balanced := balanced_bracketed n
  marks := Vectors.marks_marker .ijk .x

theorem ofExpression_bracketed {α : Type} [Scalar α] (n : Nat) :
    ∃ r, ofExpression ({ strict := true } : Options α) (bracketed (n + 1) ++ ['*', 'i']) = (.ok r, []) ∧
      r.texts = [bracketed (n + 1)] := by
  obtain ⟨f, hdecompose, hf⟩ := Vectors.decompose_fieldText (bracketedTerm n) []
  have htext : fieldText (bracketedTerm n) [] = bracketed (n + 1) ++ ['*', 'i'] := by
    simp [fieldText, BracketedTerm.head, BracketedTerm.stem, BracketedTerm.group, BracketedTerm.sign,
      bracketedTerm, bracketed, Vectors.Link.chars, Expression.Sign.kept, Expression.Sign.chars]
  have hcomponent : (bracketedTerm n).component = bracketed (n + 1) := rfl
  rw [htext] at hdecompose
  have htrim : Text.trim (bracketed (n + 1) ++ ['*', 'i']) = bracketed (n + 1) ++ ['*', 'i'] :=
    Text.trim_eq_self (by simp [bracketed]; decide) (by simp; decide)
  obtain ⟨r, hr⟩ := ofField_automatic (o := ({ strict := true } : Options α)) rfl rfl
    (bracketed (n + 1) ++ ['*', 'i']) f
  obtain ⟨-, hsome⟩ := ofField_eq_ok hr
  refine ⟨r, ?_, ?_⟩
  · have hconvention : Convention.ofValue (.null : Settings.Value α) = .ok .ijk := rfl
    rw [ofExpression, htrim]
    simp only [hconvention, Vectors.parse, hdecompose, hr]
    rfl
  · have hx : f.get .x = some (bracketed (n + 1)) := by
      rw [hf, ← hcomponent]
      rfl
    have hy : f.get .y = none := by rw [hf]; rfl
    have hz : f.get .z = none := by rw [hf]; rfl
    simp [texts, hsome, Axis.all, hx, hy, hz]

/-- A field is accepted whose component is nested too deeply to have a value. -/
theorem deep_field_accepted :
    ∃ r, ofExpression ({ strict := true } : Options Float) (bracketed 3000 ++ ['*', 'i']) = (.ok r, []) ∧
      ¬ r.Evaluates (⟨1.0, 1.0, 1.0⟩ : Point Float) := by
  obtain ⟨r, hr, htexts⟩ := ofExpression_bracketed (α := Float) 2999
  refine ⟨r, hr, fun h => ?_⟩
  rw [evaluates_iff r _ ⟨1.0, 1.0, 1.0⟩, htexts] at h
  obtain ⟨e, he⟩ := h _ (List.mem_singleton_self _)
  rw [(Expression.derives_bracketed _).evaluate, Expression.nesting_bracketed,
    if_neg (by decide)] at he
  cases he

end Request

end FieldPlot
