import FieldPlot.Proofs.Outcome
import FieldPlot.Scene.Canvas

/-! What emitters put on a canvas. An emitter is told by the items of its outcome, whatever else it
computes on the way. The segments among them are visible parts, which is all that is known of their ends. -/

namespace FieldPlot.Scene

variable {α β : Type} {P Q : Item α → Prop}

/-- Every item of an outcome satisfies `P`. -/
def Emits (P : Item α → Prop) (m : Except Fault (List (Item α))) : Prop :=
  ∀ items, m = .ok items → ∀ item ∈ items, P item

namespace Emits

variable {m : Except Fault (List (Item α))}

theorem mono (h : Emits P m) (hPQ : ∀ item, P item → Q item) : Emits Q m :=
  fun items hitems item hitem => hPQ item (h items hitems item hitem)

theorem ok {items : List (Item α)} (h : ∀ item ∈ items, P item) : Emits P (.ok items) :=
  fun _ hitems => Except.ok.inj hitems ▸ h

theorem nil : Emits P (.ok []) :=
  ok fun _ h => nomatch h

theorem bind {x : Except Fault β} {f : β → Except Fault (List (Item α))}
    (h : ∀ b, x = .ok b → Emits P (f b)) : Emits P (x >>= f) := by
  intro items hitems
  obtain ⟨b, hb, hf⟩ := bind_eq_ok.mp hitems
  exact h b hb items hf

/-- An emitter that goes on with its items. -/
theorem andThen {f : List (Item α) → Except Fault (List (Item α))} (hm : Emits P m)
    (hf : ∀ items, (∀ item ∈ items, P item) → Emits P (f items)) : Emits P (m >>= f) :=
  bind fun items hitems => hf items (hm items hitems)

/-- An emitter that goes on with the items of either branch. -/
theorem branch {c : Prop} [Decidable c] {m' : Except Fault (List (Item α))}
    {f : List (Item α) → Except Fault (List (Item α))} (hm : Emits P m) (hm' : Emits P m')
    (hf : ∀ items, (∀ item ∈ items, P item) → Emits P (f items)) :
    Emits P (if c then m >>= f else m' >>= f) := by
  split
  · exact andThen hm hf
  · exact andThen hm' hf

/-- An emitter that is left out without a condition. -/
theorem optional {c : Prop} [Decidable c] (hm : Emits P m) : Emits P (if c then m else .ok []) := by
  split
  · exact hm
  · exact nil

theorem append {items more : List (Item α)} (h : ∀ item ∈ items, P item) (h' : ∀ item ∈ more, P item) :
    Emits P (.ok (items ++ more)) :=
  ok (List.forall_mem_append.mpr ⟨h, h'⟩)

theorem flatMapM {l : List β} {f : β → Except Fault (List (Item α))} (h : ∀ b ∈ l, Emits P (f b)) :
    Emits P (l.flatMapM f) := by
  intro items hitems item hitem
  obtain ⟨parts, hparts, rfl⟩ := flatMapM_eq_ok.mp hitems
  obtain ⟨part, hpart, hitem⟩ := List.mem_flatten.mp hitem
  obtain ⟨b, hb, hf⟩ := exists_of_mem_right hparts hpart
  exact h b hb part hf item hitem

theorem mapM {l : List β} {f : β → Except Fault (Item α)} (h : ∀ b ∈ l, ∀ item, f b = .ok item → P item) :
    Emits P (l.mapM f) := by
  intro items hitems item hitem
  obtain ⟨b, hb, hf⟩ := exists_of_mem_right (mapM_eq_ok.mp hitems) hitem
  exact h b hb item hf

end Emits

/-! ### Roles -/

section

variable {role : Role} {items : List (Item α)}

theorem filter_role_of_absent (h : ∀ item ∈ items, item.role ≠ role) :
    items.filter (·.role = role) = [] :=
  List.filter_eq_nil_iff.mpr fun item hitem hrole => h item hitem (of_decide_eq_true hrole)

theorem absent_of_roles (role : Role) {roles : List Role} (h : ∀ item ∈ items, item.role ∈ roles)
    (hrole : role ∉ roles) : ∀ item ∈ items, item.role ≠ role :=
  fun item hitem hsame => hrole (hsame ▸ h item hitem)

theorem filter_role_of_all (h : ∀ item ∈ items, item.role = role) : items.filter (·.role = role) = items :=
  List.filter_eq_self.mpr fun item hitem => decide_eq_true (h item hitem)

end

def Shape.isCircle : Shape α → Bool
  | .circle .. => true
  | _ => false

/-- An item whose role and depth are `known`, and whose points, where it consists of segments, are
`shown`. A circle is a dot of a field. -/
structure Drawn (shown : Pixel α → Prop) (known : Role → α → Prop) (item : Item α) : Prop where
  known : known item.role item.depth
  shown : item.shape.isLinear = true → ∀ p ∈ item.shape.points, shown p
  circle : item.shape.isCircle = true → item.role = .field

/-- Items whose segments are `shown`, whatever part they play. -/
abbrev Shown (shown : Pixel α → Prop) : Item α → Prop :=
  Drawn shown fun _ _ => True

/-- Items whose segments are `shown`, which play one of some parts. -/
abbrev Plays (shown : Pixel α → Prop) (roles : List Role) : Item α → Prop :=
  Drawn shown fun role _ => role ∈ roles

section

variable {shown : Pixel α → Prop} {roles : List Role} {role : Role} {m : Except Fault (List (Item α))}
  {items : List (Item α)}

theorem Emits.filter_absent (role : Role) (hm : Emits (Plays shown roles) m) (h : m = .ok items)
    (hrole : role ∉ roles) :
    items.filter (·.role = role) = [] :=
  filter_role_of_absent (absent_of_roles role (fun item hitem => (hm items h item hitem).known) hrole)

theorem Emits.filter_all (hm : Emits (Plays shown [role]) m) (h : m = .ok items) :
    items.filter (·.role = role) = items :=
  filter_role_of_all fun item hitem => List.mem_singleton.mp (hm items h item hitem).known

end

namespace Drawn

variable {shown : Pixel α → Prop} {known : Role → α → Prop} {item : Item α}

theorem toShown (h : Drawn shown known item) : Shown shown item :=
  ⟨trivial, h.shown, h.circle⟩

theorem of_segments (hknown : known item.role item.depth) (hplain : item.shape.isCircle = false)
    (hshown : ∀ p ∈ item.shape.points, shown p) : Drawn shown known item :=
  ⟨hknown, fun _ => hshown, fun hcircle => nomatch hplain.symm.trans hcircle⟩

theorem of_area (hknown : known item.role item.depth) (harea : item.shape.isLinear = false)
    (hplain : item.shape.isCircle = false) : Drawn shown known item :=
  ⟨hknown, fun hlinear => (nomatch harea.symm.trans hlinear), fun hcircle => nomatch hplain.symm.trans hcircle⟩

theorem of_dot (hknown : known item.role item.depth) (harea : item.shape.isLinear = false)
    (hrole : item.role = .field) : Drawn shown known item :=
  ⟨hknown, fun hlinear => (nomatch harea.symm.trans hlinear), fun _ => hrole⟩

end Drawn

namespace Canvas

variable [Scalar α] {c : Canvas α} {shown : Pixel α → Prop} {known : Role → α → Prop}
  {stroke : Stroke α} {role : Role} {depth : α}

/-- The ends of every visible part are `shown`. -/
def Shows (c : Canvas α) (shown : Pixel α → Prop) : Prop :=
  ∀ a b p q, c.rect.clip a b = .ok (some (p, q)) → shown p ∧ shown q

theorem Shows.visible (h : c.Shows shown) {a b : Option (Pixel α)} {p q : Pixel α}
    (hvisible : c.visible? a b = .ok (some (p, q))) : shown p ∧ shown q := by
  unfold visible? at hvisible
  split at hvisible
  · exact h _ _ p q hvisible
  · cases hvisible

theorem line_drawn (h : c.Shows shown) (hknown : known role depth) (a b : Option (Pixel α)) :
    Emits (Drawn shown known) (c.line stroke role depth a b) := by
  refine .bind fun part hpart => ?_
  split
  · next p q =>
    obtain ⟨hp, hq⟩ := h.visible hpart
    refine .ok fun item hitem => ?_
    obtain rfl := List.mem_singleton.mp hitem
    refine .of_segments hknown rfl fun r hr => ?_
    rcases List.mem_pair.mp hr with rfl | rfl
    · exact hp
    · exact hq
  · exact .nil

/-- Stitching makes up no points. -/
theorem stitch_shown {parts : List (Option (Pixel α × Pixel α))}
    (h : ∀ a b, some (a, b) ∈ parts → shown a ∧ shown b) : ∀ run ∈ stitch parts, ∀ p ∈ run, shown p := by
  fun_induction stitch parts with
  | case1 => exact fun run hrun => nomatch hrun
  | case2 parts ih => exact ih fun a b hmem => h a b (List.mem_cons_of_mem _ hmem)
  | case3 a b c d rest first run others hsame runs hruns ih =>
    -- The part starts where its run goes on, so that its two ends replace the first point of the run.
    have hab := h a b List.mem_cons_self
    have hstitched := ih fun a b hmem => h a b (List.mem_cons_of_mem _ hmem)
    rw [show stitch (some (c, d) :: rest) = (first :: run) :: others from hruns] at hstitched
    obtain ⟨hrun, hothers⟩ := List.forall_mem_cons.mp hstitched
    exact List.forall_mem_cons.mpr ⟨List.forall_mem_cons.mpr ⟨hab.1,
      List.forall_mem_cons.mpr ⟨hab.2, (List.forall_mem_cons.mp hrun).2⟩⟩, hothers⟩
  | case4 a b c d rest _ _ _ _ runs _ ih =>
    obtain ⟨ha, hb⟩ := h a b List.mem_cons_self
    have hruns := ih fun a b hmem => h a b (List.mem_cons_of_mem _ hmem)
    exact List.forall_mem_cons.mpr ⟨by simp [ha, hb], hruns⟩
  | case5 a b parts runs _ ih =>
    obtain ⟨ha, hb⟩ := h a b List.mem_cons_self
    have hruns := ih fun a b hmem => h a b (List.mem_cons_of_mem _ hmem)
    exact List.forall_mem_cons.mpr ⟨by simp [ha, hb], hruns⟩

theorem path_drawn (h : c.Shows shown) (hknown : known role 0.0) (points : List (Option (Pixel α))) :
    Emits (Drawn shown known) (c.path stroke role points) := by
  refine .bind fun parts hparts => .ok fun item hitem => ?_
  obtain ⟨run, hrun, rfl⟩ := List.mem_map.mp hitem
  refine .of_segments hknown rfl fun p hp => stitch_shown (fun a b hmem => ?_) run hrun p hp
  obtain ⟨ends, -, hvisible⟩ := exists_of_mem_right (mapM_eq_ok.mp hparts) hmem
  exact h.visible hvisible

theorem text_drawn (hknown : known role 0.0) (colour : List Char) (font : Font α) (position : Pixel α)
    (content : List Char) : Drawn shown known (text colour font role position content) :=
  .of_area hknown rfl rfl

theorem barb_drawn (h : c.Shows shown) (hknown : known .arrow depth) (colour : List Char)
    (tip : Pixel α) (length angle : α) :
    Emits (Drawn shown known) (c.barb colour depth tip length angle) :=
  .bind fun _ _ => line_drawn h hknown _ _

theorem arrowHead_drawn (h : c.Shows shown) (hknown : known .arrow depth) (colour : List Char)
    (tip : Pixel α) (length angle : α) :
    Emits (Drawn shown known) (c.arrowHead colour depth tip length angle) :=
  .andThen (barb_drawn h hknown _ _ _ _) fun _ hfirst =>
    .andThen (barb_drawn h hknown _ _ _ _) fun _ hsecond => .append hfirst hsecond

theorem colourBar_drawn (hknown : known .colourBar 0.0) (palette : Palette α) (isShown : Bool) (lo hi : α) :
    ∀ item ∈ c.colourBar palette isShown lo hi, Drawn shown known item := by
  intro item hitem
  unfold colourBar at hitem
  split at hitem
  · simp only [List.mem_cons, List.not_mem_nil, or_false] at hitem
    rcases hitem with rfl | rfl | rfl
    · exact .of_area hknown rfl rfl
    · exact text_drawn hknown ..
    · exact text_drawn hknown ..
  · cases hitem

end Canvas

theorem shows_anything [Scalar α] (c : Canvas α) : c.Shows fun _ => True :=
  fun _ _ _ _ _ => ⟨trivial, trivial⟩

end FieldPlot.Scene
