import FieldPlot.Proofs.Expression.Mentions
import FieldPlot.Proofs.Request.Submission
import FieldPlot.Proofs.Scalar.Exact
import FieldPlot.Proofs.Vectors.LetterCase

/-! Letter case in a submission. Texts that are equal up to the case of their letters are plotted alike, or refused
for the same reason. -/

namespace FieldPlot.Request

open Expression (Arithmetic Formula SameValues sameValues_of_toLower)
open Vectors (Axis Components Convention FieldFormula SurfaceMode Vec decompose)
open Vectors.FieldFormula (componentValue)

/-- Fields with the same components present, each with the same values. -/
def SameField (f g : Components) : Prop :=
  ∀ axis : Axis, Option.Rel SameValues (f.get axis) (g.get axis)

/-- Requests of one kind that are shown in the same way and have the same values. -/
structure SamePlot (r q : Request) : Prop where
  field : Option.Rel SameField r.field q.field
  spatial : r.spatial = q.spatial
  plotMode : r.plotMode = q.plotMode
  surfaceMode : r.surfaceMode = q.surfaceMode
  showContour : r.showContour = q.showContour
  showColorbar : r.showColorbar = q.showColorbar
  values : SameValues r.expression q.expression

section

variable {α : Type} [Arithmetic α] {s t : List Char} {f g : Components} {r q : Request}

theorem formula_value_congr (h : SameValues s t) :
    (Formula.ofChars s : Formula α).value = (Formula.ofChars t).value := by
  funext p
  rw [Formula.value_eq, Formula.value_eq]
  exact h α p

variable [Scalar α]

theorem componentValue_congr {s t : Option (List Char)} (h : Option.Rel SameValues s t) :
    componentValue (α := α) (s.map Formula.ofChars) = componentValue (t.map Formula.ofChars) := by
  cases h with
  | none => rfl
  | some h => exact formula_value_congr h

theorem SameField.value_eq (h : SameField f g) :
    (FieldFormula.ofComponents f : FieldFormula α).value = (FieldFormula.ofComponents g).value := by
  have hx := componentValue_congr (α := α) (h .x)
  have hy := componentValue_congr (α := α) (h .y)
  have hz := componentValue_congr (α := α) (h .z)
  funext p
  simp only [Components.get] at hx hy hz
  simp only [FieldFormula.value, FieldFormula.ofComponents, hx, hy, hz]

theorem SameField.getD {f g : Option Components} (h : Option.Rel SameField f g) :
    SameField (f.getD .none) (g.getD .none) := by
  cases h with
  | none => exact fun axis => by cases axis <;> exact .none
  | some h => exact h

/-- What is shown in the same way is drawn through the same functions. -/
theorem SamePlot.samples_eq (h : r.SamePlot q) : (r.samples : Samples α) = q.samples := by
  have hscalar : (Formula.ofChars r.expression : Formula α).sample = (Formula.ofChars q.expression).sample := by
    funext p
    rw [Formula.sample, Formula.sample, formula_value_congr h.values]
  have hvector : (FieldFormula.ofComponents (r.field.getD .none) : FieldFormula α).sample =
      (FieldFormula.ofComponents (q.field.getD .none)).sample := by
    funext p
    rw [FieldFormula.sample, FieldFormula.sample, (SameField.getD h.field).value_eq]
  rw [samples, samples, hscalar, hvector]

end

/-- Submissions that are both accepted as the same plot, or both refused with the same fault. -/
inductive SameOutcome : Except Fault Request → Except Fault Request → Prop
  | ok {r q : Request} (h : r.SamePlot q) : SameOutcome (.ok r) (.ok q)
  | error (f : Fault) : SameOutcome (.error f) (.error f)

theorem SameOutcome.bind {β : Type} {x : Except Fault β} {f g : β → Except Fault Request}
    (h : ∀ b, SameOutcome (f b) (g b)) : SameOutcome (x >>= f) (x >>= g) := by
  cases x with
  | error e => exact .error e
  | ok b => exact h b

/-- A text is refused where its check fails, whatever the fault. -/
theorem trial_fst (s : List Char) : (trial s).1 =
    (Expression.check s).mapError fun _ => .rejected "Invalid function syntax" [tooDeep] := by
  unfold trial
  split <;>
    next h =>
      rw [h]
      rfl

/-- How a submission comes out, without what there is to report of it. -/
theorem ofExpression_fst {α : Type} [Scalar α] (o : Options α) (text : List Char) : (ofExpression o text).1 =
    if o.strict && (Text.trim text).isEmpty then
      .error (.rejected "Please enter a function" [Expression.Issue.empty.message])
    else Convention.ofValue o.convention >>= fun convention =>
      match (decompose convention (Text.trim text)).1 with
      | some field => ofField o (Text.trim text) field
      | none =>
        if o.strict then (trial (Text.trim text)).1 >>= ofFunction o (Text.trim text)
        else ofFunction o (Text.trim text) [] := by
  unfold ofExpression
  dsimp only
  generalize Text.trim text = s
  split
  · rfl
  cases Convention.ofValue o.convention with
  | error f => rfl
  | ok convention =>
    rw [ok_bind]
    unfold Vectors.parse
    dsimp only
    cases (decompose convention s).1 with
    | some field => rfl
    | none =>
      dsimp only
      split
      · obtain ⟨_ | issues, more⟩ := trial s <;> rfl
      · rfl

section

variable {α : Type} [Scalar α] {s t : List Char} {f g : Components}

theorem sameField_of_lowered (h : f.lowered = g.lowered) : SameField f g := by
  intro axis
  have haxis : (f.get axis).map (List.map Char.toLower) = (g.get axis).map (List.map Char.toLower) := by
    rw [← f.get_lowered, ← g.get_lowered, h]
  cases hf : f.get axis with
  | none =>
    rw [hf] at haxis
    rw [Option.map_eq_none_iff.mp haxis.symm]
    exact .none
  | some x =>
    rw [hf] at haxis
    obtain ⟨y, hy, hxy⟩ := Option.map_eq_some_iff.mp haxis.symm
    rw [hy]
    exact .some (sameValues_of_toLower hxy.symm)

theorem isSpatial_lowered (f : Components) : f.lowered.isSpatial = f.isSpatial :=
  Option.isSome_map

variable (h : s.map Char.toLower = t.map Char.toLower)

include h

theorem ofField_sameOutcome (o : Options α) (hfg : f.lowered = g.lowered) :
    SameOutcome (ofField o s f) (ofField o t g) := by
  have hspatial : f.isSpatial = g.isSpatial := by rw [← isSpatial_lowered, hfg, isSpatial_lowered]
  unfold ofField
  rw [hspatial]
  refine .bind fun plotMode => ?_
  split <;>
    exact .bind fun surfaceMode =>
      .ok ⟨.some (sameField_of_lowered hfg), rfl, rfl, rfl, rfl, rfl, sameValues_of_toLower h⟩

theorem ofFunction_sameOutcome (o : Options α) (issues issues' : List Expression.Issue) :
    SameOutcome (ofFunction o s issues) (ofFunction o t issues') := by
  have hy : Expression.usesY s = Expression.usesY t := Expression.standsAlone_of_toLower h 'y' false
  have hz : Expression.usesZ s = Expression.usesZ t := Expression.standsAlone_of_toLower h 'z' false
  unfold ofFunction
  rw [hy, hz]
  split <;>
    exact .bind fun plotMode => .bind fun surfaceMode =>
      .ok ⟨.none, rfl, rfl, rfl, rfl, rfl, sameValues_of_toLower h⟩

theorem check_sameCase {issues : List Expression.Issue} (hs : Expression.check s = .ok issues) :
    ∃ issues', Expression.check t = .ok issues' := by
  unfold Expression.check at hs ⊢
  rw [Text.isEmpty_trim_of_toLower h] at hs
  split
  · exact ⟨_, rfl⟩
  · next ht =>
    rw [if_neg ht] at hs
    cases hread : Expression.Parsed.ofChars? t with
    | some e => exact ⟨e.issues, rfl⟩
    | none =>
      have hnone : Expression.Parsed.ofChars? s = none := (Expression.ofChars?_eq_none_of_toLower h).mpr hread
      rw [hnone] at hs
      cases hs

theorem trial_sameOutcome (o : Options α) :
    SameOutcome ((trial s).1 >>= ofFunction o s) ((trial t).1 >>= ofFunction o t) := by
  rw [trial_fst, trial_fst]
  cases hs : Expression.check s with
  | ok issues =>
    obtain ⟨issues', ht⟩ := check_sameCase h hs
    rw [ht]
    exact ofFunction_sameOutcome h o issues issues'
  | error f =>
    cases ht : Expression.check t with
    | ok issues =>
      obtain ⟨issues', hs'⟩ := check_sameCase h.symm ht
      rw [hs] at hs'
      cases hs'
    | error g => exact .error _

end

/-- A submission comes out the same in capitals and in small letters, whatever the notation and the modes. -/
theorem letter_case_ignored {α : Type} [Scalar α] (o : Options α) {s t : List Char}
    (h : s.map Char.toLower = t.map Char.toLower) : SameOutcome (ofExpression o s).1 (ofExpression o t).1 := by
  have htrim : (Text.trim s).map Char.toLower = (Text.trim t).map Char.toLower := Text.trim_of_toLower h
  rw [ofExpression_fst, ofExpression_fst, Text.isEmpty_trim_of_toLower h]
  generalize Text.trim s = s' at htrim
  generalize Text.trim t = t' at htrim
  split
  · exact .error _
  refine .bind fun convention => ?_
  have hfield : (decompose convention s').1.map Components.lowered =
      (decompose convention t').1.map Components.lowered := by
    rw [← Vectors.decompose_toLower, htrim, Vectors.decompose_toLower]
  cases hf : (decompose convention s').1 with
  | some f =>
    rw [hf] at hfield
    obtain ⟨g, hg, hfg⟩ := Option.map_eq_some_iff.mp hfield.symm
    rw [hg]
    exact ofField_sameOutcome htrim o hfg.symm
  | none =>
    rw [hf] at hfield
    rw [Option.map_eq_none_iff.mp hfield.symm]
    dsimp only
    split
    · exact trial_sameOutcome htrim o
    · exact ofFunction_sameOutcome htrim o [] []

/-- A marker, a coordinate and the name of a function, each in capitals and in small letters. -/
theorem letter_case_ignored_field :
    let s := "2*XI + SIN(Y)J".toList
    let t := "2*xi + sin(y)j".toList
    s.map Char.toLower = t.map Char.toLower ∧
    ∃ r q, (ofExpression ({ strict := true } : Options ℚ) s).1 = .ok r ∧
      (ofExpression ({ strict := true } : Options ℚ) t).1 = .ok q ∧
      r.field = some ⟨some "2*X".toList, some "SIN(Y)".toList, none⟩ ∧ r.SamePlot q ∧
      (r.samples : Samples ℚ) = q.samples := by
  intro s t
  have hletters : s.map Char.toLower = t.map Char.toLower := by decide
  let r : Request :=
    ⟨s, some ⟨some "2*X".toList, some "SIN(Y)".toList, none⟩, false, .function, .magnitude, false, true, []⟩
  let q : Request :=
    ⟨t, some ⟨some "2*x".toList, some "sin(y)".toList, none⟩, false, .function, .magnitude, false, true, []⟩
  have hr : ofExpression ({ strict := true } : Options ℚ) s = (.ok r, []) := by decide +kernel
  have hq : ofExpression ({ strict := true } : Options ℚ) t = (.ok q, []) := by decide +kernel
  have hplots := letter_case_ignored ({ strict := true } : Options ℚ) hletters
  rw [hr, hq] at hplots ⊢
  cases hplots with
  | ok hsame => exact ⟨hletters, r, q, rfl, rfl, rfl, hsame, hsame.samples_eq⟩

end FieldPlot.Request
