import Mathlib.Logic.Relation
import FieldPlot.Engine
import FieldPlot.Proofs.View.Parameters

/-! Updates and gestures as moves of the engine. Whatever moves have been made, the sections of the
settings name each key once, and an accepted update is told by the sections it reads the views from. -/

namespace FieldPlot.Engine

open Expression (Arithmetic)
open Settings (Table Value)
open Step (andThen_fault_eq_none andThen_of_fault andThen_preserves andThen_state
  atomic_fault_eq_none atomic_preserves)
open View (PlaneView SpaceView)

variable {α : Type} {e : Engine α} {payload t : Table α} {key : String}

theorem part_eq_table : e.part key = .table t ↔ Table.get? e.settings key = some (.table t) := by
  unfold part
  cases Table.get? e.settings key <;> simp

theorem part_set (v : Value α) (k : String) :
    part { e with settings := e.settings.set key v } k = if k = key then v else e.part k := by
  unfold part
  rw [Table.get?_set]
  split <;> rfl

theorem whenNamed_keeps {β : Type} (f : Engine α → β) {keys : List String}
    {next : Engine α → Step (Engine α)} (h : f (next e).state = f e) :
    f (whenNamed payload keys next e).state = f e := by
  unfold whenNamed
  split
  · exact h
  · rfl

theorem whenNamed_of_isSome {next : Engine α → Step (Engine α)} (h : (payload.get? key).isSome) :
    whenNamed payload [key] next e = next e := by
  simp [whenNamed, h]

theorem whenNamed_of_eq_none {next : Engine α → Step (Engine α)} (h : payload.get? key = none) :
    whenNamed payload [key] next e = .done e := by
  simp [whenNamed, h]

theorem updatePart_keyed (h : e.settings.IsKeyed) (key : String) (t : Table α) :
    (updatePart key t e).state.settings.IsKeyed := by
  unfold Engine.updatePart
  split
  · next old hold =>
    have hunique : Table.Unique old := h.unique_section key _ old (part_eq_table.mp hold) rfl
    exact h.set key fun s hs => Option.some.inj hs ▸ hunique.update t
  · exact h

theorem updatePart_keeps (key : String) (t : Table α) (e : Engine α) :
    (updatePart key t e).state.space = e.space ∧ (updatePart key t e).state.plane = e.plane := by
  unfold updatePart
  split <;> exact ⟨rfl, rfl⟩

theorem updatePart_part {k : String} (h : k ≠ key) (t : Table α) (e : Engine α) :
    (updatePart key t e).state.part k = e.part k := by
  unfold updatePart
  split
  · exact (part_set _ k).trans (if_neg h)
  · rfl

theorem updatePart_of_no_fault (h : (updatePart key t e).fault = none) : ∃ s, e.part key = .table s ∧
    (updatePart key t e).state =
      { e with settings := e.settings.set key (.table (Table.update s t)) } := by
  unfold updatePart at h ⊢
  split at h
  · next s hs => exact ⟨s, hs, rfl⟩
  · cases h

theorem foldViews_keyed (h : e.settings.IsKeyed) : (foldViews e).state.settings.IsKeyed :=
  andThen_preserves (P := fun e : Engine α => e.settings.IsKeyed) (updatePart_keyed h _ _)
    fun _ he => updatePart_keyed he _ _

theorem foldViews_keeps (e : Engine α) :
    (foldViews e).state.space = e.space ∧ (foldViews e).state.plane = e.plane := by
  refine andThen_preserves (P := fun t : Engine α => t.space = e.space ∧ t.plane = e.plane) ?_ ?_
  · exact updatePart_keeps _ _ e
  · intro t ht
    have hkeeps := updatePart_keeps "view2d" (PlaneView.toTable t.plane) t
    exact ⟨hkeeps.1.trans ht.1, hkeeps.2.trans ht.2⟩

/-- The views are written back only into tables. -/
theorem foldViews_of_no_fault (h : (foldViews e).fault = none) :
    ∃ s t, e.part "view3d" = .table s ∧ e.part "view2d" = .table t ∧
      (foldViews e).state =
        { e with
          settings := (e.settings.set "view3d" (.table (Table.update s e.space.toTable))).set
            "view2d" (.table (Table.update t (PlaneView.toTable e.plane))) } := by
  obtain ⟨hspace, hplane⟩ := andThen_fault_eq_none.mp h
  obtain ⟨s, hs, hs'⟩ := updatePart_of_no_fault hspace
  rw [hs'] at hplane
  obtain ⟨t, ht, ht'⟩ := updatePart_of_no_fault hplane
  rw [part_set, if_neg (by simp)] at ht
  exact ⟨s, t, hs, ht, by rw [foldViews, andThen_state _ hspace, hs', ht']⟩

variable [Scalar α]

/-- One call of the engine's owner, accepted or not. -/
inductive Move [Arithmetic α] : Engine α → Engine α → Prop
  | update (e : Engine α) (payload : Value α)
    (hpayload : ∀ t : Table α, payload.mapped? = some t → t.IsKeyed) : Move e (setParams payload e).state
  | rotate (e : Engine α) (dx dy : α) : Move e (rotate dx dy e).state
  | pan (e : Engine α) (dx dy width height : α) : Move e (pan dx dy width height e).state
  | zoom (e : Engine α) (factor : α) (cursor : Pixel α) (width height : α) :
    Move e (zoom factor cursor width height e).state
  | resetView (e : Engine α) : Move e (resetView e).state

abbrev Reachable [Arithmetic α] : Engine α → Prop :=
  Relation.ReflTransGen Move (initial : Step (Engine α)).state

theorem submit_keeps (e : Engine α) : (submit e).state.settings = e.settings ∧
    (submit e).state.space = e.space ∧ (submit e).state.plane = e.plane := by
  unfold submit
  split
  · exact ⟨rfl, rfl, rfl⟩
  · split <;> exact ⟨rfl, rfl, rfl⟩

theorem reloadSpace_state (e : Engine α) : ∃ v, (reloadSpace e).state = { e with space := v } := by
  refine atomic_preserves (P := fun t => ∃ v, t = { e with space := v }) ⟨e.space, rfl⟩ fun t ht => ?_
  obtain ⟨v, -, ht⟩ := bind_eq_ok.mp ht
  exact ⟨v, (pure_eq_ok.mp ht).symm⟩

theorem reloadPlane_state (e : Engine α) : ∃ v, (reloadPlane e).state = { e with plane := v } := by
  refine atomic_preserves (P := fun t => ∃ v, t = { e with plane := v }) ⟨e.plane, rfl⟩ fun t ht => ?_
  obtain ⟨v, -, ht⟩ := bind_eq_ok.mp ht
  exact ⟨v, (pure_eq_ok.mp ht).symm⟩

theorem reloadSpace_keeps (e : Engine α) :
    (reloadSpace e).state.settings = e.settings ∧ (reloadSpace e).state.plane = e.plane := by
  obtain ⟨v, hv⟩ := reloadSpace_state e
  rw [hv]
  exact ⟨rfl, rfl⟩

theorem reloadPlane_keeps (e : Engine α) :
    (reloadPlane e).state.settings = e.settings ∧ (reloadPlane e).state.space = e.space := by
  obtain ⟨v, hv⟩ := reloadPlane_state e
  rw [hv]
  exact ⟨rfl, rfl⟩

theorem reloadSpace_of_no_fault (h : (reloadSpace e).fault = none) :
    SpaceView.ofValue (e.part "view3d") = .ok (reloadSpace e).state.space := by
  obtain ⟨v, hv, hstate⟩ := bind_eq_ok.mp (atomic_fault_eq_none h)
  rw [hv]
  exact congrArg Except.ok (congrArg space (pure_eq_ok.mp hstate))

theorem reloadPlane_of_no_fault (h : (reloadPlane e).fault = none) :
    PlaneView.ofValue (e.part "view2d") = .ok (reloadPlane e).state.plane := by
  obtain ⟨v, hv, hstate⟩ := bind_eq_ok.mp (atomic_fault_eq_none h)
  rw [hv]
  exact congrArg Except.ok (congrArg plane (pure_eq_ok.mp hstate))

/-! ### Updates -/

/-- The engine with a payload merged into its settings, before it follows them. -/
def merged (payload : Table α) (e : Engine α) : Engine α :=
  { (foldViews e).state with settings := Settings.merge (foldViews e).state.settings payload }

/-- How the engine follows the settings that a payload has changed. -/
def refresh (payload : Table α) (e : Engine α) : Step (Engine α) :=
  (whenNamed payload ["view3d"] reloadSpace e).andThen fun e =>
    (whenNamed payload ["view2d"] reloadPlane e).andThen fun e =>
      whenNamed payload ["plot", "field"] submit e

theorem setParams_table (payload : Table α) (e : Engine α) : setParams (.table payload) e =
    (foldViews e).andThen fun e => (mergePayload payload e).andThen (refresh payload) :=
  rfl

/-- A mapping is merged as the table of its entries is. -/
theorem setParams_of_mapped {given : Value α} (h : given.mapped? = some payload) (e : Engine α) :
    setParams given e = setParams (.table payload) e := by
  rw [setParams, h]
  rfl

theorem setParams_of_not_mapped {given : Value α} (h : given.mapped? = none) (e : Engine α) :
    setParams given e = .done e := by
  rw [setParams, h]

theorem setParams_state (payload : Table α) (h : (foldViews e).fault = none) :
    (setParams (.table payload) e).state = (refresh payload (e.merged payload)).state := by
  rw [setParams_table, andThen_state _ h]
  rfl

theorem setParams_of_fault (payload : Table α) (h : (foldViews e).fault ≠ none) :
    setParams (.table payload) e = foldViews e := by
  rw [setParams_table, andThen_of_fault _ h]

theorem setParams_fault_eq_none : (setParams (.table payload) e).fault = none ↔
    (foldViews e).fault = none ∧ (refresh payload (e.merged payload)).fault = none := by
  rw [setParams_table, andThen_fault_eq_none]
  rfl

theorem refresh_settings (payload : Table α) (e : Engine α) :
    (refresh payload e).state.settings = e.settings := by
  refine andThen_preserves (P := fun t : Engine α => t.settings = e.settings) ?_ fun e₁ h₁ => ?_
  · exact whenNamed_keeps settings (reloadSpace_keeps e).1
  refine andThen_preserves (P := fun t : Engine α => t.settings = e.settings) ?_ fun e₂ h₂ => ?_
  · exact (whenNamed_keeps settings (reloadPlane_keeps e₁).1).trans h₁
  · exact (whenNamed_keeps settings (submit_keeps e₂).1).trans h₂

theorem refresh_unnamed_space (h : payload.get? "view3d" = none) (e : Engine α) :
    (refresh payload e).state.space = e.space := by
  refine andThen_preserves (P := fun t : Engine α => t.space = e.space) ?_ fun e₁ h₁ => ?_
  · rw [whenNamed_of_eq_none h]
    rfl
  refine andThen_preserves (P := fun t : Engine α => t.space = e.space) ?_ fun e₂ h₂ => ?_
  · exact (whenNamed_keeps space (reloadPlane_keeps e₁).2).trans h₁
  · exact (whenNamed_keeps space (submit_keeps e₂).2.1).trans h₂

theorem refresh_unnamed_plane (h : payload.get? "view2d" = none) (e : Engine α) :
    (refresh payload e).state.plane = e.plane := by
  refine andThen_preserves (P := fun t : Engine α => t.plane = e.plane) ?_ fun e₁ h₁ => ?_
  · exact whenNamed_keeps plane (reloadSpace_keeps e).2
  refine andThen_preserves (P := fun t : Engine α => t.plane = e.plane) ?_ fun e₂ h₂ => ?_
  · rw [whenNamed_of_eq_none h]
    exact h₁
  · exact (whenNamed_keeps plane (submit_keeps e₂).2.2).trans h₂

theorem refresh_space (h : (refresh payload e).fault = none) (hnamed : (payload.get? "view3d").isSome) :
    SpaceView.ofValue (e.part "view3d") = .ok (refresh payload e).state.space := by
  obtain ⟨hspace, -⟩ := andThen_fault_eq_none.mp h
  rw [refresh, andThen_state _ hspace]
  rw [whenNamed_of_isSome hnamed] at hspace ⊢
  rw [reloadSpace_of_no_fault hspace]
  refine congrArg Except.ok (Eq.symm ?_)
  refine andThen_preserves (P := fun t : Engine α => t.space = (reloadSpace e).state.space) ?_
    fun t ht => ?_
  · exact whenNamed_keeps space (reloadPlane_keeps _).2
  · exact (whenNamed_keeps space (submit_keeps t).2.1).trans ht

theorem refresh_plane (h : (refresh payload e).fault = none) (hnamed : (payload.get? "view2d").isSome) :
    PlaneView.ofValue (e.part "view2d") = .ok (refresh payload e).state.plane := by
  obtain ⟨hspace, hrest⟩ := andThen_fault_eq_none.mp h
  obtain ⟨hplane, -⟩ := andThen_fault_eq_none.mp hrest
  rw [refresh, andThen_state _ hspace, andThen_state _ hplane]
  rw [whenNamed_of_isSome hnamed] at hplane ⊢
  have hsettings : (whenNamed payload ["view3d"] reloadSpace e).state.settings = e.settings :=
    whenNamed_keeps settings (reloadSpace_keeps e).1
  have hread := reloadPlane_of_no_fault hplane
  rw [part, hsettings] at hread
  rw [part, hread, whenNamed_keeps plane (submit_keeps _).2.2]

/-! ### Gestures -/

theorem gesture_preserves {P : Engine α → Prop} {inSpace inPlane : Step (Engine α)} (he : P e)
    (hspace : P inSpace.state) (hplane : P inPlane.state) : P (e.gesture inSpace inPlane).state := by
  unfold gesture
  split
  · exact hspace
  · exact hplane
  · exact he

/-- What a gesture keeps that moves the view. -/
structure Gestured (e t : Engine α) : Prop where
  settings : t.settings = e.settings
  unmoved : ∀ p : SpaceView.Parameter, ¬p.IsMoved → p.get t.space = p.get e.space

theorem Gestured.refl {α : Type} (e : Engine α) : Gestured e e :=
  ⟨rfl, fun _ _ => rfl⟩

omit [Scalar α] in
/-- A gesture in the plane that comes through moves the view of it, and no more. -/
theorem panPlane_state {f : PlaneView α → Except Fault (PlaneView α)} {t : Engine α}
    (h : (do return { e with plane := ← f e.plane }) = Except.ok t) : ∃ v, t = { e with plane := v } := by
  obtain ⟨v, -, h⟩ := bind_eq_ok.mp h
  exact ⟨v, (pure_eq_ok.mp h).symm⟩

theorem zoomPlane_state {factor : α} {cursor : Pixel α} {width height : α} {t : Engine α}
    (h : e.zoomPlane factor cursor width height = .ok t) : ∃ v, t = { e with plane := v } := by
  simp only [zoomPlane, bind_eq_ok, pure_eq_ok] at h
  obtain ⟨_, -, _, -, _, -, _, -, _, -, v, -, h⟩ := h
  exact ⟨v, h.symm⟩

theorem rotate_gestured (dx dy : α) (e : Engine α) : Gestured e (rotate dx dy e).state :=
  gesture_preserves (.refl e) ⟨rfl, fun _ hp => SpaceView.rotate_unmoved dx dy _ hp⟩ (.refl e)

theorem pan_gestured (dx dy width height : α) (e : Engine α) :
    Gestured e (pan dx dy width height e).state := by
  refine gesture_preserves (.refl e) ⟨rfl, fun _ hp => SpaceView.panBy_unmoved dx dy _ hp⟩
    (atomic_preserves (.refl e) fun t ht => ?_)
  obtain ⟨v, rfl⟩ := panPlane_state ht
  exact ⟨rfl, fun _ _ => rfl⟩

theorem zoom_gestured [Arithmetic α] (factor : α) (cursor : Pixel α) (width height : α)
    (e : Engine α) : Gestured e (zoom factor cursor width height e).state := by
  refine gesture_preserves (.refl e) ?_ (atomic_preserves (.refl e) fun t ht => ?_)
  · unfold zoomSpace
    split
    · exact .refl e
    · exact ⟨rfl, fun p hp => SpaceView.zoom_unmoved _ _ _ _ hp⟩
  · obtain ⟨v, rfl⟩ := zoomPlane_state ht
    exact ⟨rfl, fun _ _ => rfl⟩

theorem resetView_settings (e : Engine α) : (resetView e).state.settings = e.settings :=
  gesture_preserves (P := fun t : Engine α => t.settings = e.settings) rfl rfl rfl

/-! ### Runs -/

theorem Move.keyed [Arithmetic α] {e t : Engine α} (hmove : Move e t) (h : e.settings.IsKeyed) :
    t.settings.IsKeyed := by
  cases hmove with
  | update given hpayload =>
    cases hgiven : given.mapped? with
    | some payload =>
      rw [setParams_of_mapped hgiven]
      by_cases hfold : (foldViews e).fault = none
      · rw [setParams_state payload hfold, refresh_settings]
        exact (foldViews_keyed h).merge (hpayload payload hgiven)
      · rw [setParams_of_fault payload hfold]
        exact foldViews_keyed h
    | none =>
      rw [setParams_of_not_mapped hgiven]
      exact h
  | rotate dx dy => exact (rotate_gestured dx dy e).settings ▸ h
  | pan dx dy width height => exact (pan_gestured dx dy width height e).settings ▸ h
  | zoom factor cursor width height => exact (zoom_gestured factor cursor width height e).settings ▸ h
  | resetView => exact resetView_settings e ▸ h

theorem initial_eq : (initial : Step (Engine α)).state.settings = Settings.defaults ∧
    (initial : Step (Engine α)).state.space = SpaceView.initial ∧
    (initial : Step (Engine α)).state.plane = PlaneView.initial :=
  submit_keeps _

theorem Reachable.keyed [Arithmetic α] (h : Reachable e) : e.settings.IsKeyed := by
  induction h with
  | refl => exact (initial_eq (α := α)).1 ▸ Settings.defaults_keyed
  | tail _ hmove ih => exact hmove.keyed ih

end FieldPlot.Engine
