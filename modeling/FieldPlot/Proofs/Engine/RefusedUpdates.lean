import FieldPlot.Proofs.Engine.Sections
import FieldPlot.Scalar.Double
import FieldPlot.Expression.Double

/-! Refused updates. An update is not undone where it fails: the payload stays in the settings, and the views
that have been read from them stay as well. What it never touches is the request and the error. -/

namespace FieldPlot.Engine

open Expression (Arithmetic)
open Request (Options ofExpression)
open Settings (Table Value)
open Step (andThen_fault_eq_some andThen_of_fault andThen_state atomic_fault_eq_none atomic_fault_eq_some)
open View (PlaneView SpaceView)

variable {α : Type} {e d t : Engine α} {payload : Table α} {f : Fault}

/-- The settings with both views written into their sections. -/
def written (space plane : Table α) (e : Engine α) : Table α :=
  (e.settings.set "view3d" (.table (Table.update space e.space.toTable))).set
    "view2d" (.table (Table.update plane (PlaneView.toTable e.plane)))

/-- `d` is `e` with both views written back and then the whole payload merged in. -/
def MergedInto (payload : Table α) (e d : Engine α) : Prop :=
  ∃ s t, e.part "view3d" = .table s ∧ e.part "view2d" = .table t ∧
    d = { e with settings := Settings.merge (e.written s t) payload }

/-- A view as `read` has it from its section in the settings of `d` if the payload names that section, and else
as it was. -/
structure Reads {ν : Type} (key : String) (read : Value α → Except Fault ν) (payload : Table α) (d : Engine α)
    (old view : ν) : Prop where
  named : (payload.get? key).isSome → read (d.part key) = .ok view
  unnamed : payload.get? key = none → view = old

section

variable [Scalar α]

def ReadsSpace (payload : Table α) (d : Engine α) : SpaceView α → Prop :=
  Reads "view3d" SpaceView.ofValue payload d d.space

def ReadsPlane (payload : Table α) (d : Engine α) : PlaneView α → Prop :=
  Reads "view2d" PlaneView.ofValue payload d d.plane

/-- What an update leaves behind that fails with `f`, one constructor for each place to fail at. -/
inductive Refused (payload : Table α) (e : Engine α) (f : Fault) : Engine α → Prop
  /-- The section of the view in space is no table to write to. -/
  | spaceUnwritten (h : ∀ s, e.part "view3d" ≠ .table s) (hf : f = .wrongShape) : Refused payload e f e
  | planeUnwritten {s : Table α} (hs : e.part "view3d" = .table s) (h : ∀ t, e.part "view2d" ≠ .table t)
    (hf : f = .wrongShape) : Refused payload e f
      { e with settings := e.settings.set "view3d" (.table (Table.update s e.space.toTable)) }
  /-- The view in space cannot be read from what the payload has made of its section. -/
  | spaceUnread {d : Engine α} (hd : MergedInto payload e d) (hnamed : (payload.get? "view3d").isSome)
    (h : SpaceView.ofValue (d.part "view3d") = .error f) : Refused payload e f d
  | planeUnread {d : Engine α} {v : SpaceView α} (hd : MergedInto payload e d) (hv : ReadsSpace payload d v)
    (hnamed : (payload.get? "view2d").isSome) (h : PlaneView.ofValue (d.part "view2d") = .error f) :
    Refused payload e f { d with space := v }
  /-- The settings describe no submission. -/
  | undescribed {d : Engine α} {v : SpaceView α} {w : PlaneView α} (hd : MergedInto payload e d)
    (hv : ReadsSpace payload d v) (hw : ReadsPlane payload d w) (h : d.submission = .error f) :
    Refused payload e f { d with space := v, plane := w }
  /-- The submission names a mode or a notation that does not exist. -/
  | unsubmitted {d : Engine α} {v : SpaceView α} {w : PlaneView α} {o : Options α} {text : List Char}
    {entries : List Entry} (hd : MergedInto payload e d) (hv : ReadsSpace payload d v)
    (hw : ReadsPlane payload d w) (hsubmission : d.submission = .ok (o, text))
    (h : ofExpression o text = (.error f, entries)) : Refused payload e f { d with space := v, plane := w }

theorem Refused.keeps_request (h : Refused payload e f t) : t.request = e.request ∧ t.error = e.error := by
  cases h with
  | spaceUnwritten => exact ⟨rfl, rfl⟩
  | planeUnwritten => exact ⟨rfl, rfl⟩
  | spaceUnread hd | planeUnread hd | undescribed hd | unsubmitted hd =>
    obtain ⟨s, t, -, -, rfl⟩ := hd
    exact ⟨rfl, rfl⟩

end

/-! ### The places to fail at -/

theorem updatePart_refused {key : String} {s : Table α} (h : (updatePart key s e).fault = some f) :
    (∀ s, e.part key ≠ .table s) ∧ f = .wrongShape ∧ (updatePart key s e).state = e := by
  unfold updatePart at h ⊢
  split at h
  · cases h
  · next hshape => exact ⟨hshape, (Option.some.inj h).symm, rfl⟩

theorem foldViews_mergedInto (h : (foldViews e).fault = none) (payload : Table α) :
    MergedInto payload e (e.merged payload) := by
  obtain ⟨s, t, hs, ht, hstate⟩ := foldViews_of_no_fault h
  exact ⟨s, t, hs, ht, by rw [merged, hstate, written]⟩

theorem whenNamed_fault {keys : List String} {next : Engine α → Step (Engine α)}
    (h : (whenNamed payload keys next e).fault = some f) :
    (keys.any fun key => (payload.get? key).isSome) = true ∧ whenNamed payload keys next e = next e := by
  unfold whenNamed at h ⊢
  split at h
  · next hnamed => exact ⟨hnamed, if_pos hnamed⟩
  · cases h

section

variable {ν : Type} {key : String} {read : Value α → Except Fault ν} {old : ν} (put : ν → Engine α)
  {next : Engine α → Step (Engine α)}

theorem whenNamed_reads (hnext : next d = .atomic d do return put (← read (d.part key))) (hold : put old = d)
    (h : (whenNamed payload [key] next d).fault = none) :
    ∃ v, Reads key read payload d old v ∧ (whenNamed payload [key] next d).state = put v := by
  cases hnamed : payload.get? key with
  | none =>
    rw [whenNamed_of_eq_none hnamed]
    exact ⟨old, ⟨fun hsome => by simp [hnamed] at hsome, fun _ => rfl⟩, hold.symm⟩
  | some part =>
    rw [whenNamed_of_isSome (by simp [hnamed]), hnext] at h ⊢
    obtain ⟨v, hread, hstate⟩ := bind_eq_ok.mp (atomic_fault_eq_none h)
    exact ⟨v, ⟨fun _ => hread, fun hnone => by simp [hnamed] at hnone⟩, (pure_eq_ok.mp hstate).symm⟩

theorem whenNamed_unread (hnext : next d = .atomic d do return put (← read (d.part key)))
    (h : (whenNamed payload [key] next d).fault = some f) :
    (payload.get? key).isSome ∧ read (d.part key) = .error f ∧ (whenNamed payload [key] next d).state = d := by
  obtain ⟨hnamed, hsame⟩ := whenNamed_fault h
  rw [hsame, hnext] at h ⊢
  obtain ⟨hread, hstate⟩ := atomic_fault_eq_some h
  exact ⟨by simpa using hnamed, eq_error_of_map hread, hstate⟩

end

variable [Scalar α]

theorem foldViews_refused (h : (foldViews e).fault = some f) : Refused payload e f (foldViews e).state := by
  rcases andThen_fault_eq_some.mp h with hspace | ⟨hspace, hplane⟩
  · obtain ⟨hshape, hf, hstate⟩ := updatePart_refused hspace
    rw [foldViews, andThen_of_fault _ (by simp [hspace]), hstate]
    exact .spaceUnwritten hshape hf
  · obtain ⟨s, hs, hs'⟩ := updatePart_of_no_fault hspace
    obtain ⟨hshape, hf, hstate⟩ := updatePart_refused hplane
    rw [foldViews, andThen_state _ hspace, hstate, hs']
    refine .planeUnwritten hs (fun t ht => hshape t ?_) hf
    rw [updatePart_part (by simp), ht]

theorem submit_refused (h : (submit d).fault = some f) : (submit d).state = d ∧
    (d.submission = .error f ∨
      ∃ o text entries, d.submission = .ok (o, text) ∧ ofExpression o text = (.error f, entries)) := by
  cases hsubmission : d.submission with
  | error g =>
    simp only [submit, hsubmission] at h ⊢
    exact ⟨rfl, .inl (congrArg Except.error (Option.some.inj h))⟩
  | ok described =>
    obtain ⟨o, text⟩ := described
    rcases houtcome : ofExpression o text with ⟨outcome, entries⟩
    cases outcome with
    | ok r => simp [submit, hsubmission, houtcome] at h
    | error g =>
      -- A rejection becomes the error of the engine; every other fault is passed on.
      cases g with
      | rejected reason issues => simp [submit, hsubmission, houtcome] at h
      | _ =>
        simp only [submit, hsubmission, houtcome] at h ⊢
        exact ⟨trivial, .inr ⟨o, text, entries, rfl, Option.some.inj h ▸ houtcome⟩⟩

/-! ### Updates -/

theorem refresh_refused (hd : MergedInto payload e d) (h : (refresh payload d).fault = some f) :
    Refused payload e f (refresh payload d).state := by
  rcases andThen_fault_eq_some.mp h with hspace | ⟨hspace, h⟩
  · rw [refresh, andThen_of_fault _ (by simp [hspace])]
    obtain ⟨hnamed, hread, hstate⟩ := whenNamed_unread (fun v => { d with space := v }) rfl hspace
    rw [hstate]
    exact .spaceUnread hd hnamed hread
  obtain ⟨v, hv, hstate⟩ := whenNamed_reads (fun v => { d with space := v }) rfl rfl hspace
  rw [refresh, andThen_state _ hspace]
  rw [hstate] at h ⊢
  rcases andThen_fault_eq_some.mp h with hplane | ⟨hplane, h⟩
  · rw [andThen_of_fault _ (by simp [hplane])]
    obtain ⟨hnamed, hread, hstate⟩ := whenNamed_unread (fun w => { d with space := v, plane := w }) rfl hplane
    rw [hstate]
    exact .planeUnread hd hv hnamed hread
  obtain ⟨w, hw, hstate⟩ := whenNamed_reads (fun w => { d with space := v, plane := w }) rfl rfl hplane
  rw [andThen_state _ hplane]
  rw [hstate] at h ⊢
  obtain ⟨-, hsame⟩ := whenNamed_fault h
  rw [hsame] at h ⊢
  obtain ⟨hstate, hsubmission | ⟨o, text, entries, hsubmission, hrefused⟩⟩ := submit_refused h
  · rw [hstate]
    exact .undescribed (d := d) hd hv ⟨hw.named, hw.unnamed⟩ hsubmission
  · rw [hstate]
    exact .unsubmitted (d := d) hd hv ⟨hw.named, hw.unnamed⟩ hsubmission hrefused

/-- A refused update keeps the request and the error. It has written both views back and merged the whole
payload into the settings unless a section of a view is no table; and it has read the view in space and then
the view in the plane, where the payload names them, as far as it has come. -/
theorem update_refused {given : Value α} (h : (setParams given e).fault = some f) :
    (setParams given e).state.request = e.request ∧ (setParams given e).state.error = e.error ∧
      ∃ payload, given.mapped? = some payload ∧ Refused payload e f (setParams given e).state := by
  obtain ⟨payload, hgiven, hrefused⟩ : ∃ payload, given.mapped? = some payload ∧
      Refused payload e f (setParams given e).state := by
    cases hgiven : given.mapped? with
    | some payload =>
      refine ⟨payload, rfl, ?_⟩
      rw [setParams_of_mapped hgiven] at h ⊢
      rcases andThen_fault_eq_some.mp h with hfold | ⟨hfold, hrefresh⟩
      · rw [setParams_of_fault _ (by simp [hfold])]
        exact foldViews_refused hfold
      · rw [setParams_state payload hfold]
        exact refresh_refused (foldViews_mergedInto hfold payload) hrefresh
    | none =>
      rw [setParams_of_not_mapped hgiven] at h
      cases h
  exact ⟨hrefused.keeps_request.1, hrefused.keeps_request.2, payload, hgiven, hrefused⟩

/-! ### A notation that does not exist -/

/-- A payload of one range, one end of the window and an unknown notation of unit vectors. -/
def polar : Table Float :=
  [("view3d", .table [("rangeX", .real 8.0)]), ("view2d", .table [("xMin", .real (-8.0))]),
    ("field", .table [("unitConvention", .text "polar")])]

theorem polar_refused : (setParams (.table polar) (initial : Step (Engine Float)).state).fault =
    some (.unknownConvention "'polar'") := by
  decide +kernel

theorem update_refused_polar :
    let e := (initial : Step (Engine Float)).state
    let refused := setParams (.table polar) e
    refused.state.request = e.request ∧ refused.state.error = e.error ∧
      Refused polar e (.unknownConvention "'polar'") refused.state := by
  obtain ⟨hrequest, herror, t, ht, hrefused⟩ := update_refused polar_refused
  obtain rfl := Option.some.inj ht
  exact ⟨hrequest, herror, hrefused⟩

/-- The update is refused for its notation, and still the settings and both views are others than before. -/
theorem polar_update_kept :
    let e := (initial : Step (Engine Float)).state
    let refused := setParams (.table polar) e
    Reachable e ∧ refused.fault = some (.unknownConvention "'polar'") ∧
      refused.state.settings ≠ e.settings ∧ refused.state.space ≠ e.space ∧
      refused.state.plane ≠ e.plane := by
  refine ⟨.refl, polar_refused, fun hsettings => ?_, fun hspace => ?_, fun hplane => ?_⟩
  · have hnotation := congrArg (fun t : Table Float =>
      ((t.get? "field").getD .null).lookup "unitConvention" .null |>.map Value.asText) hsettings
    exact absurd hnotation (by decide +kernel)
  · exact absurd (congrArg SpaceView.rangeX hspace) (by decide +kernel)
  · exact absurd (congrArg (fun v : PlaneView Float => v.xMin) hplane) (by decide +kernel)

end FieldPlot.Engine
