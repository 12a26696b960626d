import FieldPlot.Proofs.Engine.Sections
import FieldPlot.Proofs.Request.Submission
import FieldPlot.Proofs.Scalar.Exact

/-! The request and the settings it follows. Whatever is called, there is a request or else an error. As
long as no update is refused, the request is the one that the settings submit. -/

namespace FieldPlot.Engine

open Expression (Arithmetic)
open Request (Options ofExpression)
open Settings (Table Value)
open Step (andThen_fault_eq_none andThen_of_fault andThen_preserves andThen_state atomic_preserves)
open View (PlaneView SpaceView)

section

variable {α : Type} {e t : Engine α}

/-- What a step leaves as it is that submits nothing. -/
structure KeepsPlot (e t : Engine α) : Prop where
  request : t.request = e.request
  error : t.error = e.error
  plot : t.part "plot" = e.part "plot"
  field : t.part "field" = e.part "field"

namespace KeepsPlot

theorem refl (e : Engine α) : KeepsPlot e e :=
  ⟨rfl, rfl, rfl, rfl⟩

theorem trans {s : Engine α} (h : KeepsPlot e t) (h' : KeepsPlot t s) : KeepsPlot e s :=
  ⟨h'.request.trans h.request, h'.error.trans h.error, h'.plot.trans h.plot, h'.field.trans h.field⟩

theorem andThen {step : Step (Engine α)} {next : Engine α → Step (Engine α)} (h : KeepsPlot e step.state)
    (hnext : ∀ t, KeepsPlot t (next t).state) : KeepsPlot e (step.andThen next).state :=
  andThen_preserves (P := KeepsPlot e) h fun t ht => ht.trans (hnext t)

theorem whenNamed {payload : Table α} {keys : List String} {next : Engine α → Step (Engine α)}
    (h : KeepsPlot e (next e).state) : KeepsPlot e (whenNamed payload keys next e).state := by
  unfold Engine.whenNamed
  split
  · exact h
  · exact .refl e

end KeepsPlot

theorem updatePart_keepsPlot {key : String} (hplot : "plot" ≠ key) (hfield : "field" ≠ key) (s : Table α)
    (e : Engine α) : KeepsPlot e (updatePart key s e).state := by
  refine ⟨?_, ?_, updatePart_part hplot s e, updatePart_part hfield s e⟩
  all_goals
    unfold updatePart
    split <;> rfl

theorem foldViews_keepsPlot (e : Engine α) : KeepsPlot e (foldViews e).state :=
  (updatePart_keepsPlot (by simp) (by simp) _ e).andThen fun t =>
    updatePart_keepsPlot (by simp) (by simp) _ t

variable [Scalar α]

theorem reloadSpace_keepsPlot (e : Engine α) : KeepsPlot e (reloadSpace e).state := by
  obtain ⟨v, hv⟩ := reloadSpace_state e
  rw [hv]
  exact ⟨rfl, rfl, rfl, rfl⟩

theorem reloadPlane_keepsPlot (e : Engine α) : KeepsPlot e (reloadPlane e).state := by
  obtain ⟨v, hv⟩ := reloadPlane_state e
  rw [hv]
  exact ⟨rfl, rfl, rfl, rfl⟩

/-! ### Submissions -/

/-- A mode as a request is given it: one that is missing or automatic is left to the request. -/
inductive ModeGiven : Option (Value α) → Value α → Prop
  | missing : ModeGiven none .null
  | automatic : ModeGiven (some (.text "auto")) .null
  | chosen {v : Value α} (h : v ≠ .text "auto") : ModeGiven (some v) v

omit [Scalar α] in
theorem modeGiven_chosenMode (setting : Option (Value α)) :
    ModeGiven setting (chosenMode (setting.getD (.text "auto"))) := by
  cases setting with
  | none => exact .missing
  | some v =>
    rw [Option.getD_some]
    unfold chosenMode
    split
    · exact .automatic
    · next h => exact .chosen h

/-- What the sections of the plot and of the field ask a request for. A missing expression is empty, a missing flag
for iso-lines counts as off and one for the colour scale as on, and every submission is a strict one. -/
structure Asks (plot field : Table α) (o : Options α) (text : List Char) : Prop where
  expression : text = ((plot.get? "expression").getD (.text "")).asText.toList
  plotMode : ModeGiven (plot.get? "plotMode") o.plotMode
  surfaceMode : ModeGiven (field.get? "surfaceMode") o.surfaceMode
  showContour : o.showContour = ((plot.get? "showContour").getD (.bool false)).isTruthy
  showColorbar : o.showColorbar = ((plot.get? "showColorbar").getD (.bool true)).isTruthy
  convention : o.convention = (field.get? "unitConvention").getD .null
  strict : o.strict = true

omit [Scalar α] in
theorem lookup_eq_ok {v default w : Value α} {key : String} :
    v.lookup key default = .ok w ↔ ∃ t, v.mapped? = some t ∧ (Table.get? t key).getD default = w := by
  rw [Value.lookup, Value.lookup?]
  cases v.mapped? with
  | some t => simp only [ok_bind, pure_eq_ok, Option.some.injEq, exists_eq_left']
  | none => exact ⟨fun h => (nomatch h), fun ⟨_, h, _⟩ => (nomatch h)⟩

theorem submission_asks {e : Engine α} {o : Options α} {text : List Char} (h : e.submission = .ok (o, text)) :
    ∃ plot field, (e.part "plot").mapped? = some plot ∧ (e.part "field").mapped? = some field ∧
      Asks plot field o text := by
  simp only [submission, bind_eq_ok, pure_eq_ok, lookup_eq_ok] at h
  obtain ⟨_, ⟨plot, hplot, rfl⟩, _, ⟨field, hfield, rfl⟩, h⟩ := h
  simp only [hplot, hfield, Option.some.injEq, exists_eq_left'] at h
  obtain ⟨rfl, rfl⟩ := Prod.mk.inj h
  exact ⟨plot, field, hplot, hfield, rfl, modeGiven_chosenMode _, modeGiven_chosenMode _, rfl, rfl, rfl, rfl⟩

/-- The request is the one that the sections of the plot and of the field ask for, or else the error is the reason of
its refusal. -/
inductive Current (e : Engine α) : Prop
  | accepted {plot field : Table α} {o : Options α} {text : List Char} {r : Request} {entries : List Entry}
    (hplot : (e.part "plot").mapped? = some plot) (hfield : (e.part "field").mapped? = some field)
    (hasks : Asks plot field o text) (h : ofExpression o text = (.ok r, entries)) (hrequest : e.request = some r)
    (herror : e.error = none)
  | refused {plot field : Table α} {o : Options α} {text : List Char} {reason : String} {issues : List String}
    {entries : List Entry} (hplot : (e.part "plot").mapped? = some plot)
    (hfield : (e.part "field").mapped? = some field) (hasks : Asks plot field o text)
    (h : ofExpression o text = (.error (.rejected reason issues), entries)) (hrequest : e.request = none)
    (herror : e.error = some reason)

theorem submit_cases (e : Engine α) :
    Current (submit e).state ∨ (submit e).state = e ∧ (submit e).fault ≠ none := by
  unfold submit
  split
  · exact .inr ⟨rfl, Option.some_ne_none _⟩
  · next o text hsubmission =>
    obtain ⟨plot, field, hplot, hfield, hasks⟩ := submission_asks hsubmission
    split
    · next r entries hr => exact .inl (.accepted hplot hfield hasks hr rfl rfl)
    · next reason issues entries hr => exact .inl (.refused hplot hfield hasks hr rfl rfl)
    · exact .inr ⟨rfl, Option.some_ne_none _⟩

theorem submit_current (h : (submit e).fault = none) : Current (submit e).state :=
  (submit_cases e).resolve_right fun hfailed => hfailed.2 h

/-- A submission whose modes are not set comes through. -/
theorem submit_automatic {o : Options α} {text : List Char} (h : e.submission = .ok (o, text))
    (hplot : o.plotMode = .null) (hsurface : o.surfaceMode = .null) {convention : Vectors.Convention}
    (hconvention : Vectors.Convention.ofValue o.convention = .ok convention) :
    (submit e).fault = none := by
  simp only [submit, h]
  rcases Request.ofExpression_automatic hplot hsurface hconvention text with
    ⟨r, entries, hr⟩ | ⟨reason, issues, entries, hr⟩ <;> simp only [hr]

theorem initial_current : Current (initial : Step (Engine α)).state := by
  have hconvention : Vectors.Convention.ofValue (.text "ijk" : Value α) = .ok .ijk := rfl
  exact submit_current (submit_automatic rfl rfl rfl hconvention)

/-! ### Updates -/

theorem reportCount_keepsPlot (count : Nat) (width height : α) (e : Engine α) :
    KeepsPlot e (reportCount count width height e).state := by
  unfold reportCount
  split <;> exact ⟨rfl, rfl, rfl, rfl⟩

theorem reportNote_keepsPlot (e : Engine α) : KeepsPlot e (reportNote e).state := by
  unfold reportNote
  split
  · exact .refl e
  · split <;> exact ⟨rfl, rfl, rfl, rfl⟩

/-- One call of the engine's owner. -/
inductive Call (α : Type)
  | update (payload : Value α)
  | rotate (dx dy : α)
  | pan (dx dy width height : α)
  | zoom (factor : α) (cursor : Pixel α) (width height : α)
  | resetView
  | frame (width height : α)

def Call.isUpdate : Call α → Bool
  | update _ => true
  | _ => false

variable [Arithmetic α]

def Call.perform : Call α → Engine α → Step (Engine α)
  | update payload => setParams payload
  | rotate dx dy => Engine.rotate dx dy
  | pan dx dy width height => Engine.pan dx dy width height
  | zoom factor cursor width height => Engine.zoom factor cursor width height
  | resetView => Engine.resetView
  | frame width height => fun e => (e.frame width height).2

/-- The engine after some calls; one that fails does not stop the others. -/
def run (e : Engine α) (calls : List (Call α)) : Engine α :=
  calls.foldl (fun e call => (call.perform e).state) e

/-- No update among the calls is refused. -/
def Accepts (e : Engine α) : List (Call α) → Prop
  | [] => True
  | call :: calls => (call.isUpdate = true → (call.perform e).fault = none) ∧
    Accepts (call.perform e).state calls

theorem frame_keepsPlot (width height : α) (e : Engine α) : KeepsPlot e (e.frame width height).2.state := by
  unfold frame
  split
  · exact .refl e
  · exact (reportCount_keepsPlot _ width height e).andThen reportNote_keepsPlot

theorem perform_keepsPlot {call : Call α} (h : call.isUpdate = false) (e : Engine α) :
    KeepsPlot e (call.perform e).state := by
  cases call with
  | update payload => cases h
  | rotate dx dy => exact gesture_preserves (.refl e) ⟨rfl, rfl, rfl, rfl⟩ (.refl e)
  | pan dx dy width height =>
    refine gesture_preserves (.refl e) ⟨rfl, rfl, rfl, rfl⟩
      (atomic_preserves (.refl e) fun t ht => ?_)
    obtain ⟨v, rfl⟩ := panPlane_state ht
    exact ⟨rfl, rfl, rfl, rfl⟩
  | zoom factor cursor width height =>
    refine gesture_preserves (.refl e) ?_ (atomic_preserves (.refl e) fun t ht => ?_)
    · unfold zoomSpace
      split
      · exact .refl e
      · exact ⟨rfl, rfl, rfl, rfl⟩
    · obtain ⟨v, rfl⟩ := zoomPlane_state ht
      exact ⟨rfl, rfl, rfl, rfl⟩
  | resetView => exact gesture_preserves (.refl e) ⟨rfl, rfl, rfl, rfl⟩ ⟨rfl, rfl, rfl, rfl⟩
  | frame width height => exact frame_keepsPlot width height e

section

/-! What holds of every submission goes on to hold, refused updates and gestures in between, as long as it only
depends on the request and the error. -/

variable {P : Engine α → Prop} (hcurrent : ∀ {e : Engine α}, Current e → P e)
  (hsame : ∀ {e t : Engine α}, t.request = e.request → t.error = e.error → P e → P t)

include hcurrent hsame

omit [Arithmetic α] in
theorem update_preserves (given : Value α) (h : P e) : P (setParams given e).state := by
  have hkeeps : ∀ {e t : Engine α}, KeepsPlot e t → P e → P t := fun hkeeps => hsame hkeeps.request hkeeps.error
  cases hgiven : given.mapped? with
  | some payload =>
    rw [setParams_of_mapped hgiven]
    have hfold := hkeeps (foldViews_keepsPlot e) h
    by_cases hfault : (foldViews e).fault = none
    · -- Wherever the update stops, nothing but a submission has touched request and error.
      rw [setParams_state payload hfault]
      have hmerged : P (e.merged payload) := hsame (e := (foldViews e).state) rfl rfl hfold
      refine andThen_preserves (P := P) (hkeeps (reloadSpace_keepsPlot _).whenNamed hmerged) fun e₁ h₁ => ?_
      refine andThen_preserves (P := P) (hkeeps (reloadPlane_keepsPlot e₁).whenNamed h₁) fun e₂ h₂ => ?_
      unfold whenNamed
      split
      · rcases submit_cases e₂ with hsubmitted | ⟨hunchanged, -⟩
        · exact hcurrent hsubmitted
        · rwa [hunchanged]
      · exact h₂
    · rwa [setParams_of_fault _ hfault]
  | none =>
    rw [setParams_of_not_mapped hgiven]
    exact h

theorem perform_preserves (call : Call α) (h : P e) : P (call.perform e).state := by
  cases hcall : call.isUpdate with
  | false =>
    have hkeeps := perform_keepsPlot hcall e
    exact hsame hkeeps.request hkeeps.error h
  | true =>
    cases call with
    | update payload => exact update_preserves hcurrent hsame payload h
    | _ => cases hcall

theorem run_preserves (calls : List (Call α)) (h : P e) : P (run e calls) := by
  induction calls generalizing e with
  | nil => exact h
  | cons call calls ih => exact ih (perform_preserves hcurrent hsame call h)

end

end

end FieldPlot.Engine
