import FieldPlot.Proofs.Engine.Sections
import FieldPlot.Scalar.Double
import FieldPlot.Expression.Double

/-! What an accepted update does to the parameters that its payload does not name. Those that gestures
move are written back before and stay. The others stay as long as the settings hold them, which a reset
of the view in space puts to an end: it moves them without telling the settings. -/

namespace FieldPlot.Engine

open Expression (Arithmetic)
open Settings (Table Value)
open Step (andThen_of_fault andThen_preserves)
open View (PlaneView SpaceView)
open View.SpaceView (Parameter)
open View.PlaneView (Bound)

variable {α : Type} {e : Engine α} {given v : Value α} {payload s t : Table α} {p : Parameter}

def Names (payload : Table α) (part key : String) : Prop :=
  ∃ v s, payload.get? part = some v ∧ v.mapped? = some s ∧ key ∈ s.map Prod.fst

theorem absent_or_mapped {part : String} (h : ∀ v, payload.get? part = some v → v.mapped?.isSome) :
    payload.get? part = none ∨ ∃ v s, payload.get? part = some v ∧ v.mapped? = some s := by
  cases hv : payload.get? part with
  | none => exact .inl rfl
  | some v =>
    obtain ⟨s, hs⟩ := Option.isSome_iff_exists.mp (h v hv)
    exact .inr ⟨v, s, rfl, hs⟩

theorem merged_space (h : (foldViews e).fault = none) (hpayload : payload.Unique)
    (hv : payload.get? "view3d" = some v) (hs : v.mapped? = some s) : ∃ t, e.part "view3d" = .table t ∧
      (e.merged payload).part "view3d" = .table (Settings.mergeKeys (Table.update t e.space.toTable) s) := by
  obtain ⟨t, u, ht, -, hfold⟩ := foldViews_of_no_fault h
  refine ⟨t, ht, part_eq_table.mpr ?_⟩
  rw [merged, hfold, Settings.get?_merge _ hpayload, hv, Table.get?_set, if_neg (by simp),
    Table.get?_set, if_pos rfl]
  simp only [Settings.mergeSection, hs]

theorem merged_plane (h : (foldViews e).fault = none) (hpayload : payload.Unique)
    (hv : payload.get? "view2d" = some v) (hs : v.mapped? = some s) : ∃ t, e.part "view2d" = .table t ∧
      (e.merged payload).part "view2d" =
        .table (Settings.mergeKeys (Table.update t (PlaneView.toTable e.plane)) s) := by
  obtain ⟨t, u, -, hu, hfold⟩ := foldViews_of_no_fault h
  refine ⟨u, hu, part_eq_table.mpr ?_⟩
  rw [merged, hfold, Settings.get?_merge _ hpayload, hv, Table.get?_set, if_pos rfl]
  simp only [Settings.mergeSection, hs]

variable [Scalar α]

/-- What the settings hold for a parameter of the view in space, or its default. -/
def held (e : Engine α) (p : Parameter) : Except Fault α :=
  match (e.part "view3d").mapped? with
  | some t => SpaceView.number (Settings.spaceDefaults.update t) p.key
  | none => .error .wrongShape

theorem held_of_table (h : e.part "view3d" = .table t) (p : Parameter) :
    e.held p = SpaceView.number (Settings.spaceDefaults.update t) p.key := by
  simp only [held, h, Value.mapped?]

theorem held_of_ofValue {v : SpaceView α} (ht : e.part "view3d" = .table t)
    (h : SpaceView.ofValue (e.part "view3d") = .ok v) (p : Parameter) : e.held p = .ok (p.get v) := by
  rw [ht] at h
  obtain ⟨entries, hentries, h⟩ := bind_eq_ok.mp h
  obtain rfl := Except.ok.inj hentries
  exact (held_of_table ht p).trans (SpaceView.number_of_ofTable h p)

/-! ### One update -/

/-- What an accepted update leaves of the parameters that its payload does not name. -/
structure Keeps (payload : Table α) (e after : Engine α) : Prop where
  bounds : ∀ b : Bound, ¬Names payload "view2d" b.key → b.get after.plane = b.get e.plane
  moved : ∀ p : Parameter, p.IsMoved → ¬Names payload "view3d" p.key → p.get after.space = p.get e.space
  unmoved : ∀ p : Parameter, ¬p.IsMoved → ¬Names payload "view3d" p.key →
    (payload.get? "view3d").isSome → e.held p = .ok (p.get after.space)
  unnamed : payload.get? "view3d" = none → after.space = e.space

theorem reloaded_space {v : SpaceView α} (ht : t.Unique) (hk : p.key ∉ s.map Prod.fst)
    (h : SpaceView.ofValue (.table (Settings.mergeKeys (Table.update t e.space.toTable) s)) = .ok v) :
    (p.IsMoved → p.get v = p.get e.space) ∧
    (¬p.IsMoved → SpaceView.number (Settings.spaceDefaults.update t) p.key = .ok (p.get v)) := by
  have hread := SpaceView.number_of_ofTable h p
  have hget := Settings.get?_update_mergeKeys Settings.spaceDefaults ht (SpaceView.toTable_unique e.space) hk
  rw [SpaceView.number, hget] at hread
  constructor
  · intro hp
    rw [Table.get?_of_mem (SpaceView.toTable_unique e.space) (SpaceView.mem_toTable e.space hp)] at hread
    exact (Except.ok.inj hread).symm
  · intro hp
    rw [Table.get?_eq_none (SpaceView.key_notMem_toTable e.space hp), Option.none_or] at hread
    rwa [SpaceView.number, Table.get?_update _ ht]

theorem reloaded_plane {v : PlaneView α} {b : Bound} (ht : t.Unique) (hk : b.key ∉ s.map Prod.fst)
    (h : PlaneView.ofValue (.table (Settings.mergeKeys (Table.update t (PlaneView.toTable e.plane)) s)) =
      .ok v) : b.get v = b.get e.plane := by
  have hread := PlaneView.number_of_ofTable h b
  have hget := Settings.get?_update_mergeKeys Settings.planeDefaults ht (PlaneView.toTable_unique e.plane) hk
  rw [PlaneView.number, hget,
    Table.get?_of_mem (PlaneView.toTable_unique e.plane) (PlaneView.mem_toTable e.plane b)] at hread
  exact (Except.ok.inj hread).symm

theorem setParams_unnamed_space (hnone : payload.get? "view3d" = none) (e : Engine α) :
    (setParams (.table payload) e).state.space = e.space := by
  by_cases hfold : (foldViews e).fault = none
  · rw [setParams_state payload hfold, refresh_unnamed_space hnone]
    exact (foldViews_keeps e).1
  · rw [setParams_of_fault _ hfold, (foldViews_keeps e).1]

/-- The view in space after an accepted update that names it, one parameter at a time. -/
theorem setParams_reloads_space (he : e.settings.IsKeyed) (hpayload : payload.IsKeyed)
    (hspace : ∀ v, payload.get? "view3d" = some v → v.mapped?.isSome)
    (haccepted : (setParams (.table payload) e).fault = none) (hnamed : (payload.get? "view3d").isSome)
    (hp : ¬Names payload "view3d" p.key) :
    (p.IsMoved → p.get (setParams (.table payload) e).state.space = p.get e.space) ∧
      (¬p.IsMoved → e.held p = .ok (p.get (setParams (.table payload) e).state.space)) := by
  obtain ⟨hfold, hrefresh⟩ := setParams_fault_eq_none.mp haccepted
  rcases absent_or_mapped hspace with hnone | ⟨v, s, hv, hs⟩
  · rw [hnone] at hnamed
    cases hnamed
  · obtain ⟨t, ht, hpart⟩ := merged_space hfold hpayload.unique hv hs
    have hunique : Table.Unique t := he.unique_section "view3d" _ t (part_eq_table.mp ht) rfl
    have hread := refresh_space hrefresh hnamed
    rw [hpart] at hread
    rw [setParams_state payload hfold, held_of_table ht]
    exact reloaded_space hunique (fun hk => hp ⟨v, s, hv, hs, hk⟩) hread

theorem setParams_reloads_plane {b : Bound} (he : e.settings.IsKeyed) (hpayload : payload.IsKeyed)
    (hplane : ∀ v, payload.get? "view2d" = some v → v.mapped?.isSome)
    (haccepted : (setParams (.table payload) e).fault = none) (hb : ¬Names payload "view2d" b.key) :
    b.get (setParams (.table payload) e).state.plane = b.get e.plane := by
  obtain ⟨hfold, hrefresh⟩ := setParams_fault_eq_none.mp haccepted
  rw [setParams_state payload hfold]
  rcases absent_or_mapped hplane with hnone | ⟨v, s, hv, hs⟩
  · rw [refresh_unnamed_plane hnone]
    exact congrArg b.get (foldViews_keeps e).2
  · obtain ⟨t, ht, hpart⟩ := merged_plane hfold hpayload.unique hv hs
    have hunique : Table.Unique t := he.unique_section "view2d" _ t (part_eq_table.mp ht) rfl
    have hread := refresh_plane hrefresh (hv ▸ rfl)
    rw [hpart] at hread
    exact reloaded_plane hunique (fun hk => hb ⟨v, s, hv, hs, hk⟩) hread

theorem setParams_keeps (he : e.settings.IsKeyed) (hpayload : payload.IsKeyed)
    (hspace : ∀ v, payload.get? "view3d" = some v → v.mapped?.isSome)
    (hplane : ∀ v, payload.get? "view2d" = some v → v.mapped?.isSome)
    (haccepted : (setParams (.table payload) e).fault = none) :
    Keeps payload e (setParams (.table payload) e).state where
  bounds _ hb := setParams_reloads_plane he hpayload hplane haccepted hb
  moved p hp hn := by
    cases hnamed : payload.get? "view3d" with
    | none => rw [setParams_unnamed_space hnamed]
    | some v => exact (setParams_reloads_space he hpayload hspace haccepted (hnamed ▸ rfl) hn).1 hp
  unmoved _ hp hn hnamed := (setParams_reloads_space he hpayload hspace haccepted hnamed hn).2 hp
  unnamed hnone := setParams_unnamed_space hnone e

/-! ### Runs -/

/-- What a run comes to that has read the view in space, at the start or by an accepted update, and has
not reset it or been refused one since. -/
inductive Settled [Arithmetic α] : Engine α → Prop
  | start : Settled (initial : Step (Engine α)).state
  | read {e : Engine α} {given v : Value α} {payload s : Table α} (he : Reachable e)
    (hgiven : given.mapped? = some payload) (hpayload : payload.IsKeyed) (hv : payload.get? "view3d" = some v)
    (hs : v.mapped? = some s) (haccepted : (setParams given e).fault = none) : Settled (setParams given e).state
  | pass {e : Engine α} {given : Value α} {payload : Table α} (he : Settled e) (hgiven : given.mapped? = some payload)
    (hpayload : payload.IsKeyed) (hnone : payload.get? "view3d" = none) : Settled (setParams given e).state
  | rotate {e : Engine α} (he : Settled e) (dx dy : α) : Settled (rotate dx dy e).state
  | pan {e : Engine α} (he : Settled e) (dx dy width height : α) : Settled (pan dx dy width height e).state
  | zoom {e : Engine α} (he : Settled e) (factor : α) (cursor : Pixel α) (width height : α) :
    Settled (zoom factor cursor width height e).state
  | resetPlane {e : Engine α} (he : Settled e) (hplane : e.isSpace = .ok false) :
    Settled (resetView e).state

theorem Settled.reachable [Arithmetic α] (h : Settled e) : Reachable e := by
  induction h with
  | start => exact .refl
  | read he hgiven hpayload _ _ _ =>
    exact he.tail (.update _ _ fun t ht => Option.some.inj (hgiven.symm.trans ht) ▸ hpayload)
  | pass _ hgiven hpayload _ ih =>
    exact ih.tail (.update _ _ fun t ht => Option.some.inj (hgiven.symm.trans ht) ▸ hpayload)
  | rotate _ dx dy ih => exact ih.tail (.rotate _ dx dy)
  | pan _ dx dy width height ih => exact ih.tail (.pan _ dx dy width height)
  | zoom _ factor cursor width height ih => exact ih.tail (.zoom _ factor cursor width height)
  | resetPlane _ _ ih => exact ih.tail (.resetView _)

theorem Gestured.held {t : Engine α} (h : Gestured e t) (p : Parameter) : t.held p = e.held p := by
  simp only [Engine.held, part, h.settings]

theorem held_initial (p : Parameter) :
    (initial : Step (Engine α)).state.held p = .ok (p.get (initial : Step (Engine α)).state.space) := by
  have hpart : (initial : Step (Engine α)).state.part "view3d" = .table Settings.spaceDefaults := by
    rw [part, initial_eq.1]
    rfl
  have hunique : Table.Unique (Settings.spaceDefaults : Table α) := by
    simp [Table.Unique, Settings.spaceDefaults]
  rw [held_of_table hpart, SpaceView.number, Table.get?_update _ hunique, Option.or_self, initial_eq.2.1]
  exact SpaceView.number_defaults p

/-- Writing the views back leaves the rest of their sections alone. -/
theorem foldViews_held (he : e.settings.IsKeyed) (hp : ¬p.IsMoved) : (foldViews e).state.held p = e.held p := by
  refine andThen_preserves (P := fun t : Engine α => t.held p = e.held p) ?_ fun t ht => ?_
  · unfold updatePart
    split
    · next t ht =>
      have hunique : Table.Unique t := he.unique_section "view3d" _ t (part_eq_table.mp ht) rfl
      have hnone := Table.get?_eq_none (SpaceView.key_notMem_toTable e.space hp)
      rw [Step.done, held_of_table ((part_set _ _).trans (if_pos rfl)), held_of_table ht, SpaceView.number,
        SpaceView.number, Table.get?_update _ (hunique.update _), Table.get?_update _ hunique,
        Table.get?_update _ (SpaceView.toTable_unique e.space), hnone, Option.none_or]
    · rfl
  · rw [held, updatePart_part (by simp), ← held, ht]

theorem setParams_unnamed_held (he : e.settings.IsKeyed) (hpayload : payload.IsKeyed)
    (hnone : payload.get? "view3d" = none) (hp : ¬p.IsMoved) :
    (setParams (.table payload) e).state.held p = e.held p := by
  rw [← foldViews_held he hp]
  by_cases hfold : (foldViews e).fault = none
  · rw [setParams_state payload hfold, held, part, refresh_settings, merged,
      Settings.get?_merge _ hpayload.unique, hnone]
    rfl
  · rw [setParams_of_fault _ hfold]

/-- Along a settled run the settings hold what gestures do not move. -/
theorem Settled.held [Arithmetic α] (h : Settled e) (hp : ¬p.IsMoved) :
    e.held p = .ok (p.get e.space) := by
  induction h with
  | start => exact held_initial p
  | read he hgiven hpayload hv hs haccepted =>
    rw [setParams_of_mapped hgiven] at haccepted ⊢
    obtain ⟨hfold, hrefresh⟩ := setParams_fault_eq_none.mp haccepted
    obtain ⟨t, -, hpart⟩ := merged_space hfold hpayload.unique hv hs
    have hread := refresh_space hrefresh (hv ▸ rfl)
    rw [setParams_state _ hfold]
    rw [part, ← refresh_settings _ (merged _ _)] at hpart hread
    exact held_of_ofValue hpart hread p
  | pass he hgiven hpayload hnone ih =>
    rw [setParams_of_mapped hgiven, setParams_unnamed_held he.reachable.keyed hpayload hnone hp,
      setParams_unnamed_space hnone, ih]
  | rotate _ dx dy ih =>
    have hg := rotate_gestured dx dy
    rw [(hg _).held, (hg _).unmoved p hp, ih]
  | pan _ dx dy width height ih =>
    have hg := pan_gestured dx dy width height
    rw [(hg _).held, (hg _).unmoved p hp, ih]
  | zoom _ factor cursor width height ih =>
    have hg := zoom_gestured factor cursor width height
    rw [(hg _).held, (hg _).unmoved p hp, ih]
  | resetPlane _ hplane ih =>
    simp only [resetView, gesture, hplane]
    exact ih

/-- A reset of the view in space does not last: where an update names the section at all, it brings back
what it does not name and gestures do not move. -/
theorem setParams_undoes_reset [Arithmetic α] (he : Settled e) (hspace : e.isSpace = .ok true)
    (hgiven : given.mapped? = some payload) (hpayload : payload.IsKeyed) (hv : payload.get? "view3d" = some v)
    (hs : v.mapped? = some s) (haccepted : (setParams given (resetView e).state).fault = none) (hp : ¬p.IsMoved)
    (hn : p.key ∉ s.map Prod.fst) : p.get (setParams given (resetView e).state).state.space = p.get e.space := by
  rw [setParams_of_mapped hgiven] at haccepted ⊢
  have hreset : (resetView e).state = { e with space := SpaceView.initial } := by
    simp only [resetView, gesture, hspace, Step.done]
  have hn' : ¬Names payload "view3d" p.key := by
    rintro ⟨v', s', hv', hs', hk⟩
    obtain rfl := Option.some.inj (hv.symm.trans hv')
    obtain rfl := Option.some.inj (hs.symm.trans hs')
    exact hn hk
  have hmapped : ∀ w, payload.get? "view3d" = some w → w.mapped?.isSome := by
    intro w hw
    obtain rfl := Option.some.inj (hv.symm.trans hw)
    exact hs ▸ rfl
  have hreload := setParams_reloads_space (hreset ▸ he.reachable.keyed) hpayload hmapped haccepted (hv ▸ rfl) hn'
  have hheld : (resetView e).state.held p = .ok (p.get e.space) := by
    rw [hreset]
    exact he.held hp
  exact (Except.ok.inj (hheld.symm.trans (hreload.2 hp))).symm

/-- An accepted update keeps the window, the parameters that gestures move and, as long as the run is
settled, every other parameter that its payload does not name. -/
theorem update_keeps_view [Arithmetic α] (he : Reachable e) (hgiven : given.mapped? = some payload)
    (hpayload : payload.IsKeyed) (hspace : ∀ v, payload.get? "view3d" = some v → v.mapped?.isSome)
    (hplane : ∀ v, payload.get? "view2d" = some v → v.mapped?.isSome)
    (haccepted : (setParams given e).fault = none) :
    Keeps payload e (setParams given e).state ∧
      (Settled e → ∀ p : Parameter, ¬Names payload "view3d" p.key →
        p.get (setParams given e).state.space = p.get e.space) := by
  rw [setParams_of_mapped hgiven] at haccepted ⊢
  have hkeeps := setParams_keeps he.keyed hpayload hspace hplane haccepted
  refine ⟨hkeeps, fun hsettled p hn => ?_⟩
  cases hnamed : payload.get? "view3d" with
  | none => rw [hkeeps.unnamed hnamed]
  | some v =>
    by_cases hp : p.IsMoved
    · exact hkeeps.moved p hp hn
    · have hheld := hkeeps.unmoved p hp hn (hnamed ▸ rfl)
      rw [hsettled.held hp] at hheld
      exact (Except.ok.inj hheld).symm

/-! ### A slow rotation -/

/-- A payload that slows the rotation down. -/
def slowing : Table Float :=
  [("view3d", .table [("rotateSpeed", .real 0.05)])]

/-- A payload that turns the view. -/
def turning : Table Float :=
  [("view3d", .table [("rotationX", .real 0.5)])]

theorem slowing_keyed : slowing.IsKeyed where
  unique := by simp [Table.Unique, slowing]
  unique_section k v s hv hs := by
    obtain ⟨-, rfl⟩ : k = "view3d" ∧ v = .table [("rotateSpeed", .real 0.05)] := by
      simpa [slowing] using Table.mem_of_get? hv
    obtain rfl := Option.some.inj hs
    simp [Table.Unique]

theorem turning_keyed : turning.IsKeyed where
  unique := by simp [Table.Unique, turning]
  unique_section k v s hv hs := by
    obtain ⟨-, rfl⟩ : k = "view3d" ∧ v = .table [("rotationX", .real 0.5)] := by
      simpa [turning] using Table.mem_of_get? hv
    obtain rfl := Option.some.inj hs
    simp [Table.Unique]

theorem slowing_accepted {e : Engine Float} (h : e.settings = Settings.defaults) :
    (setParams (.table slowing) e).fault = none ∧
    (setParams (.table slowing) e).state.isSpace = .ok true ∧
    (setParams (.table slowing) e).state.space.rotateSpeed = 0.05 ∧
    (setParams (.table turning) (setParams (.table slowing) e).state).fault = none ∧
    (setParams (.table turning) (resetView (setParams (.table slowing) e).state).state).fault = none := by
  obtain ⟨settings, space, plane, request, error, lastCount, lastNote⟩ := e
  obtain rfl := h
  simp [slowing, turning, setParams, foldViews, updatePart, mergePayload, whenNamed, reloadSpace, resetView,
    gesture, isSpace, part, SpaceView.toTable, PlaneView.toTable, SpaceView.ofValue, SpaceView.ofTable,
    SpaceView.number, Settings.merge, Settings.mergeSection, Settings.mergeKeys, Settings.mergeKey,
    Settings.defaults, Settings.plotDefaults, Settings.spaceDefaults, Settings.planeDefaults, Table.get?,
    Table.set, Table.update, Value.entries, Value.toReal, Value.lookup, Value.lookup?, Value.mapped?, Value.asText,
    Step.andThen, Step.done, Step.atomic, bind, Except.bind, pure, Except.pure]

theorem update_keeps_view_slowed :
    let slowed := (setParams (.table slowing) (initial : Step (Engine Float)).state).state
    let turned := setParams (.table turning) slowed
    turned.fault = none ∧ Keeps turning slowed turned.state ∧
      ∀ p : Parameter, ¬Names turning "view3d" p.key → p.get turned.state.space = p.get slowed.space := by
  intro slowed turned
  obtain ⟨hslowed, -, -, hturned, -⟩ := slowing_accepted initial_eq.1
  have hsettled : Settled slowed := .read .refl rfl slowing_keyed rfl rfl hslowed
  have hkeeps := update_keeps_view hsettled.reachable rfl turning_keyed
    (fun v hv => by obtain rfl := Option.some.inj hv; rfl) (fun v hv => nomatch hv) hturned
  exact ⟨hturned, hkeeps.1, hkeeps.2 hsettled⟩

theorem reset_rotateSpeed_rewound :
    let slowed := (setParams (.table slowing) (initial : Step (Engine Float)).state).state
    let fresh := (resetView slowed).state
    let turned := setParams (.table turning) fresh
    Reachable fresh ∧ turned.fault = none ∧ ¬Names turning "view3d" Parameter.rotateSpeed.key ∧
      turned.state.space.rotateSpeed ≠ fresh.space.rotateSpeed := by
  intro slowed fresh turned
  obtain ⟨hslowed, hspace, hspeed, -, hturned⟩ := slowing_accepted initial_eq.1
  have hsettled : Settled slowed := .read .refl rfl slowing_keyed rfl rfl hslowed
  have hrewound : turned.state.space.rotateSpeed = slowed.space.rotateSpeed :=
    setParams_undoes_reset (p := .rotateSpeed) hsettled hspace rfl turning_keyed rfl rfl hturned id (by decide)
  have hfresh : fresh.space = SpaceView.initial := by
    simp only [fresh, resetView, gesture, slowed, hspace, Step.done]
  refine ⟨hsettled.reachable.tail (.resetView _), hturned, ?_, ?_⟩
  · rintro ⟨v, s, hv, hs, hk⟩
    obtain rfl := Option.some.inj hv
    obtain rfl := Option.some.inj hs
    exact absurd hk (by decide)
  · rw [hrewound, hspeed, hfresh]
    decide

end FieldPlot.Engine
