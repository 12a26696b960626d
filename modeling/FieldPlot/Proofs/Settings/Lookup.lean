import FieldPlot.Settings.Merge

/-! Look-ups in merged settings. With one entry for each key a table is its look-up function, so what
assigning, updating and merging do is told key by key. -/

namespace FieldPlot.Settings

variable {α : Type}

namespace Table

variable {t s : Table α} {k key : String} {v : Value α}

def Unique (t : Table α) : Prop :=
  (t.map Prod.fst).Nodup

theorem get?_cons (entry : String × Value α) (t : Table α) (k : String) :
    get? (entry :: t) k = if entry.1 = k then some entry.2 else t.get? k := by
  by_cases h : entry.1 = k <;> simp [get?, h]

theorem get?_eq_none (h : k ∉ t.map Prod.fst) : t.get? k = none := by
  induction t with
  | nil => rfl
  | cons entry t ih =>
    simp only [List.map_cons, List.mem_cons, not_or] at h
    rw [get?_cons, if_neg (Ne.symm h.1), ih h.2]

theorem get?_of_mem (ht : t.Unique) (h : (k, v) ∈ t) : t.get? k = some v := by
  induction t with
  | nil => cases h
  | cons entry t ih =>
    obtain ⟨hentry, ht⟩ := List.nodup_cons.mp ht
    rcases List.mem_cons.mp h with rfl | h
    · rw [get?_cons, if_pos rfl]
    · have hne : entry.1 ≠ k := fun e => hentry (e ▸ List.mem_map_of_mem h)
      rw [get?_cons, if_neg hne, ih ht h]

theorem mem_of_get? (h : t.get? k = some v) : (k, v) ∈ t := by
  induction t with
  | nil => cases h
  | cons entry t ih =>
    rw [get?_cons] at h
    split at h
    · next he =>
      obtain rfl := Option.some.inj h
      exact he ▸ List.mem_cons_self
    · exact List.mem_cons_of_mem _ (ih h)

theorem keys_set (t : Table α) (key : String) (v : Value α) : (t.set key v).map Prod.fst =
    if key ∈ t.map Prod.fst then t.map Prod.fst else t.map Prod.fst ++ [key] := by
  induction t with
  | nil => rfl
  | cons entry t ih =>
    by_cases he : entry.1 = key
    · simp [set, he]
    · have he' : ¬key = entry.1 := fun e => he e.symm
      simp only [set, he, if_false, List.map_cons, ih, List.mem_cons, he', false_or]
      split <;> rfl

theorem Unique.set (h : t.Unique) (key : String) (v : Value α) : (t.set key v).Unique := by
  rw [Unique, keys_set]
  split
  · exact h
  · next hk =>
    refine List.nodup_append.mpr ⟨h, by simp, fun a ha b hb hab => ?_⟩
    obtain rfl := List.mem_singleton.mp hb
    exact hk (hab ▸ ha)

theorem Unique.foldl_set {f : Table α → String × Value α → Value α} (h : t.Unique) (s : Table α) :
    Unique (s.foldl (fun t entry => t.set entry.1 (f t entry)) t) := by
  induction s generalizing t with
  | nil => exact h
  | cons entry s ih => exact ih (h.set _ _)

/-- Assigning entries leaves the other keys as they are. -/
theorem get?_foldl_set {f : Table α → String × Value α → Value α} (h : k ∉ s.map Prod.fst) :
    Table.get? (s.foldl (fun t entry => t.set entry.1 (f t entry)) t) k = t.get? k := by
  induction s generalizing t with
  | nil => rfl
  | cons entry s ih =>
    simp only [List.map_cons, List.mem_cons, not_or] at h
    rw [List.foldl_cons, ih h.2, get?_set, if_neg h.1]

theorem Unique.update (h : t.Unique) (s : Table α) : (t.update s).Unique :=
  h.foldl_set (f := fun _ entry => entry.2) s

/-- Assigns a value for every entry of `s`, which `f` makes of the value so far and the one of the entry. -/
def mergeWith (f : Option (Value α) → Value α → Value α) (t s : Table α) : Table α :=
  s.foldl (fun t entry => t.set entry.1 (f (t.get? entry.1) entry.2)) t

theorem get?_mergeWith (f : Option (Value α) → Value α → Value α) (t : Table α) (hs : s.Unique) (k : String) :
    (t.mergeWith f s).get? k =
      match s.get? k with
      | none => t.get? k
      | some v => some (f (t.get? k) v) := by
  induction s generalizing t with
  | nil => rfl
  | cons entry s ih =>
    obtain ⟨hentry, hs⟩ := List.nodup_cons.mp hs
    have htail := ih (t.set entry.1 (f (t.get? entry.1) entry.2)) hs
    rw [mergeWith, List.foldl_cons]
    rw [mergeWith] at htail
    rw [htail, get?_set, get?_cons]
    by_cases hk : entry.1 = k
    · rw [if_pos hk, if_pos hk.symm, get?_eq_none (hk ▸ hentry), hk]
    · rw [if_neg hk, if_neg (Ne.symm hk)]

theorem get?_update (t : Table α) (hs : s.Unique) (k : String) :
    (t.update s).get? k = (s.get? k).or (t.get? k) := by
  have hmerge := get?_mergeWith (fun _ v => v) t hs k
  cases hk : s.get? k <;> rw [hk] at hmerge <;> exact hmerge

end Table

open Table

variable {t s state payload : Table α} {k : String}

theorem Table.Unique.mergeKeys (h : t.Unique) (s : Table α) : (mergeKeys t s).Unique :=
  h.foldl_set s

theorem get?_mergeKeys (t : Table α) (h : k ∉ s.map Prod.fst) : (mergeKeys t s).get? k = t.get? k :=
  get?_foldl_set h

/-- A key that a merge does not name is read from what was written into its section, or else from the
section, or else from the defaults. -/
theorem get?_update_mergeKeys (defaults : Table α) {written : Table α} (ht : t.Unique)
    (hwritten : written.Unique) (hk : k ∉ s.map Prod.fst) :
    (defaults.update (mergeKeys (t.update written) s)).get? k =
      ((written.get? k).or (t.get? k)).or (defaults.get? k) := by
  rw [get?_update defaults ((ht.update written).mergeKeys s) k, get?_mergeKeys _ hk,
    get?_update t hwritten k]

/-- A merge settles each section on its own. -/
theorem get?_merge (state : Table α) (hpayload : payload.Unique) (k : String) :
    (merge state payload).get? k =
      match payload.get? k with
      | none => state.get? k
      | some v => some (mergeSection (state.get? k) v) :=
  get?_mergeWith mergeSection state hpayload k

/-! ### Sections -/

/-- Sections as callers hand them over: neither the table nor a section that is a mapping names a key twice. -/
structure Table.IsKeyed (t : Table α) : Prop where
  unique : t.Unique
  unique_section : ∀ (key : String) (v : Value α) (s : Table α), t.get? key = some v → v.mapped? = some s → s.Unique

theorem Table.IsKeyed.set {v : Value α} (h : t.IsKeyed) (key : String)
    (hv : ∀ s : Table α, v.mapped? = some s → s.Unique) : Table.IsKeyed (t.set key v) where
  unique := h.unique.set key v
  unique_section k w s hk hs := by
    rw [get?_set] at hk
    split at hk
    · obtain rfl := Option.some.inj hk
      exact hv s hs
    · exact h.unique_section k w s hk hs

theorem Table.IsKeyed.merge (h : state.IsKeyed) (hpayload : payload.IsKeyed) :
    Table.IsKeyed (merge state payload) where
  unique := h.unique.foldl_set payload
  unique_section k w s hk hs := by
    rw [get?_merge state hpayload.unique] at hk
    split at hk
    · exact h.unique_section k w s hk hs
    · next v hv =>
      obtain rfl := Option.some.inj hk
      unfold mergeSection at hs
      split at hs
      · next old _ hold _ =>
        obtain rfl := Option.some.inj hs
        exact (h.unique_section k _ _ hold rfl).mergeKeys _
      · exact hpayload.unique_section k v s hv hs

theorem defaults_keyed [Scalar α] : (defaults : Table α).IsKeyed where
  unique := by simp [Table.Unique, defaults]
  unique_section key v s hv hs := by
    have hmem := mem_of_get? hv
    simp only [defaults, List.mem_cons, Prod.mk.injEq, List.not_mem_nil, or_false] at hmem
    rcases hmem with ⟨-, rfl⟩ | ⟨-, rfl⟩ | ⟨-, rfl⟩ | ⟨-, rfl⟩ | ⟨-, rfl⟩ | ⟨-, rfl⟩ | ⟨-, rfl⟩ <;>
      obtain rfl := Option.some.inj hs
    · simp [Table.Unique, plotDefaults]
    · simp [Table.Unique, spaceDefaults]
    · simp [Table.Unique, planeDefaults]
    · simp [Table.Unique, samplingDefaults]
    · simp [Table.Unique, fieldDefaults]
    · simp [Table.Unique, appearanceDefaults]
    · simp [Table.Unique, systemDefaults]

end FieldPlot.Settings
