import FieldPlot.Proofs.Settings.Lookup
import Mathlib.Data.Rat.Init

/-! The laws of merging. Each of its three levels overlays a mapping on a table, and where it finds no table, a table
that it overlays might as well find an empty one. So what holds of a level is carried over to the level above. Only
mappings that are not tables need a table to be merged into: anywhere else they replace what they find. -/

namespace FieldPlot.Settings

variable {α : Type}

namespace Table

variable {f : Option (Value α) → Value α → Value α} {t s u : Table α}

theorem set_eq_self {k : String} {v : Value α} (h : t.get? k = some v) : t.set k v = t := by
  induction t with
  | nil => cases h
  | cons entry t ih =>
    rw [get?_cons] at h
    by_cases hk : entry.1 = k
    · rw [if_pos hk] at h
      obtain rfl := Option.some.inj h
      rw [set, if_pos hk, ← hk]
    · rw [if_neg hk] at h
      rw [set, if_neg hk, ih h]

theorem set_eq_append {k : String} (h : k ∉ t.map Prod.fst) (v : Value α) : t.set k v = t ++ [(k, v)] := by
  induction t with
  | nil => rfl
  | cons entry t ih =>
    simp only [List.map_cons, List.mem_cons, not_or] at h
    rw [set, if_neg (Ne.symm h.1), ih h.2, List.cons_append]

/-! ### One level -/

/-- What is as a merge would leave it is left alone by the merge. -/
theorem mergeWith_eq_self (h : ∀ entry ∈ s, t.get? entry.1 = some (f (t.get? entry.1) entry.2)) :
    t.mergeWith f s = t := by
  induction s with
  | nil => rfl
  | cons entry s ih =>
    rw [mergeWith, List.foldl_cons, set_eq_self (h entry List.mem_cons_self)]
    exact ih fun e he => h e (List.mem_cons_of_mem _ he)

theorem mergeWith_mergeWith (hs : s.Unique) (h : ∀ k v old, s.get? k = some v → f (some (f old v)) v = f old v) :
    (t.mergeWith f s).mergeWith f s = t.mergeWith f s := by
  refine mergeWith_eq_self fun entry hentry => ?_
  have hget : s.get? entry.1 = some entry.2 := get?_of_mem hs hentry
  rw [get?_mergeWith f t hs, hget]
  exact congrArg some (h _ _ _ hget).symm

theorem mergeWith_eq_append (h : Unique (t ++ s)) (hf : ∀ v, f none v = v) : t.mergeWith f s = t ++ s := by
  induction s generalizing t with
  | nil => exact (List.append_nil t).symm
  | cons entry s ih =>
    have hfresh : entry.1 ∉ t.map Prod.fst := by
      rw [Unique, List.map_append, List.nodup_append] at h
      exact fun hmem => h.2.2 _ hmem _ List.mem_cons_self rfl
    rw [List.append_cons] at h ⊢
    rw [mergeWith, List.foldl_cons, get?_eq_none hfresh, hf, set_eq_append hfresh]
    exact ih h

/-- An empty table takes over what is merged into it. -/
theorem nil_mergeWith (hs : s.Unique) (hf : ∀ v, f none v = v) : mergeWith f [] s = s :=
  mergeWith_eq_append hs hf

/-- Merges commute up to `R` if they do for each key that both of them name. -/
theorem mergeWith_comm {R : Value α → Value α → Prop} (hR : ∀ v, R v v) (hs : s.Unique) (hu : u.Unique)
    (h : ∀ k v w, s.get? k = some v → u.get? k = some w →
      R (f (some (f (t.get? k) v)) w) (f (some (f (t.get? k) w)) v)) (k : String) :
    Option.Rel R (((t.mergeWith f s).mergeWith f u).get? k) (((t.mergeWith f u).mergeWith f s).get? k) := by
  have hrefl : ∀ o : Option (Value α), Option.Rel R o o
    | none => .none
    | some v => .some (hR v)
  rw [get?_mergeWith f _ hu, get?_mergeWith f _ hs, get?_mergeWith f _ hs, get?_mergeWith f _ hu]
  cases hv : s.get? k with
  | none => cases u.get? k <;> exact hrefl _
  | some v =>
    cases hw : u.get? k with
    | none => exact hrefl _
    | some w => exact .some (h k v w hv hw)

end Table

/-! ### From tables to values -/

/-- Merges a mapping into a table by `g`, and replaces the old value elsewhere. -/
def merging (g : Table α → Table α → Table α) (old : Option (Value α)) (value : Value α) : Value α :=
  match old, value.mapped? with
  | some (.table t), some s => .table (g t s)
  | _, _ => value

/-- The entries of a table; anything else has none. -/
def entriesOf : Option (Value α) → Table α
  | some (.table t) => t
  | _ => []

section

variable {g : Table α → Table α → Table α} {old : Option (Value α)} {v : Value α} {s t u : Table α}

theorem merging_into_table (h : v.mapped? = some s) : merging g (some (.table t)) v = .table (g t s) := by
  simp only [merging, h]

theorem merging_of_not_mapped (h : v.mapped? = none) (old : Option (Value α)) : merging g old v = v := by
  unfold merging
  split
  · next hmapped =>
    rw [h] at hmapped
    cases hmapped
  · rfl

theorem merging_of_not_table (h : ∀ t, old ≠ some (.table t)) (v : Value α) : merging g old v = v := by
  unfold merging
  split
  · exact absurd rfl (h _)
  · rfl

/-- What is no table counts as an empty one where a table is merged into it. -/
theorem merging_table (hg : g [] s = s) (old : Option (Value α)) :
    merging g old (.table s) = .table (g (entriesOf old) s) := by
  by_cases hold : ∃ t, old = some (.table t)
  · obtain ⟨t, rfl⟩ := hold
    rfl
  · rw [not_exists] at hold
    have hnone : entriesOf old = [] := by
      unfold entriesOf
      split
      · exact absurd rfl (hold _)
      · rfl
    rw [merging_of_not_table hold, hnone, hg]

/-- Merging `s` by `g` a second time changes nothing, and an empty table takes it over. -/
structure Settles (g : Table α → Table α → Table α) (s : Table α) : Prop where
  nil : g [] s = s
  again : ∀ t, g (g t s) s = g t s

theorem Settles.merging (h : ∀ s, v.mapped? = some s → Settles g s) (old : Option (Value α)) :
    merging g (some (merging g old v)) v = merging g old v := by
  cases hv : v.mapped? with
  | none => rw [merging_of_not_mapped hv, merging_of_not_mapped hv]
  | some s =>
    have hs : Settles g s := h s hv
    by_cases hold : ∃ t, old = some (.table t)
    · obtain ⟨t, rfl⟩ := hold
      rw [merging_into_table hv, merging_into_table hv, hs.again]
    · rw [not_exists] at hold
      rw [merging_of_not_table hold]
      -- By now the payload itself is what is there, and only a table can be merged into.
      cases v with
      | table u =>
        obtain rfl := Option.some.inj hv
        have hsame := hs.again []
        rw [hs.nil] at hsame
        rw [merging_into_table hv, hsame]
      | _ =>
        refine merging_of_not_table (fun _ ht => ?_) _
        cases ht

theorem Settles.lift (hs : s.Unique) (h : ∀ k w u, s.get? k = some w → w.mapped? = some u → Settles g u) :
    Settles (Table.mergeWith (Settings.merging g)) s where
  nil := Table.nil_mergeWith hs fun _ => rfl
  again _ := Table.mergeWith_mergeWith hs fun k v old hk => Settles.merging (fun u hu => h k v u hk hu) old

/-! ### The order of two payloads -/

/-- Equal up to the order of entries, in tables within tables as well. -/
inductive Value.SameContents : Value α → Value α → Prop
  | refl (v : Value α) : SameContents v v
  | table {s t : Table α} (h : ∀ k, Option.Rel SameContents (s.get? k) (t.get? k)) :
    SameContents (.table s) (.table t)

/-- What both name is a mapping in both, and `R` holds of the two and what they are merged into. Where there is no
table to merge them into, each of them is a table. -/
def Table.Meet (R : Table α → Table α → Table α → Prop) (u s t : Table α) : Prop :=
  ∀ k v w, s.get? k = some v → t.get? k = some w → ∃ a b, v.mapped? = some a ∧ w.mapped? = some b ∧
    ((∃ c, u.get? k = some (.table c)) ∨ v = .table a ∧ w = .table b) ∧ R (entriesOf (u.get? k)) a b

/-- It makes no difference which of the two is merged into `u` by `g` first. -/
def Commute (g : Table α → Table α → Table α) (u s t : Table α) : Prop :=
  (Value.table (g (g u s) t)).SameContents (.table (g (g u t) s))

theorem Commute.lift (hs : s.Unique) (ht : t.Unique)
    (hsettles : ∀ k v a, s.get? k = some v → v.mapped? = some a → Settles g a)
    (htsettles : ∀ k v a, t.get? k = some v → v.mapped? = some a → Settles g a) (h : Table.Meet (Commute g) u s t) :
    Commute (Table.mergeWith (merging g)) u s t := by
  refine .table (Table.mergeWith_comm .refl hs ht fun k v w hv hw => ?_)
  obtain ⟨a, b, ha, hb, ⟨c, hc⟩ | ⟨rfl, rfl⟩, hcommute⟩ := h k v w hv hw
  · rw [hc] at hcommute ⊢
    rw [merging_into_table ha, merging_into_table hb, merging_into_table hb, merging_into_table ha]
    exact hcommute
  · have hsnil := (hsettles k _ a hv rfl).nil
    have htnil := (htsettles k _ b hw rfl).nil
    rw [merging_table hsnil, merging_table htnil, merging_table htnil, merging_table hsnil]
    exact hcommute

/-! ### What one merge changes -/

/-- One level of a merge. What the payload does not name stays, a table that it has a mapping for is turned into one
as `inside` tells, and anything else is replaced. -/
structure Table.Overlaid (inside : Table α → Table α → Table α → Prop) (old payload new : Table α) : Prop where
  unnamed : ∀ k, payload.get? k = none → new.get? k = old.get? k
  replaced : ∀ k v, payload.get? k = some v → (∀ t, old.get? k = some (.table t) → v.mapped? = none) →
    new.get? k = some v
  merged : ∀ k t v s, old.get? k = some (.table t) → payload.get? k = some v → v.mapped? = some s →
    ∃ u, new.get? k = some (.table u) ∧ inside t s u

theorem Table.Overlaid.lift {inside : Table α → Table α → Table α → Prop} (hs : s.Unique)
    (h : ∀ k v a, s.get? k = some v → v.mapped? = some a → ∀ t, inside t a (g t a)) (t : Table α) :
    Table.Overlaid inside t s (t.mergeWith (merging g) s) where
  unnamed k hk := by rw [get?_mergeWith _ t hs, hk]
  replaced k v hk hv := by
    rw [get?_mergeWith _ t hs, hk]
    refine congrArg some ?_
    unfold merging
    split
    · next hold hmapped => cases (hv _ hold).symm.trans hmapped
    · rfl
  merged k u v w hu hv hw := by
    refine ⟨g u w, ?_, h k v w hv hw u⟩
    rw [get?_mergeWith _ t hs, hv, hu]
    exact congrArg some (merging_into_table hw)

end

/-! ### Three levels -/

section

variable {u s t p q state : Table α}

end

end FieldPlot.Settings
