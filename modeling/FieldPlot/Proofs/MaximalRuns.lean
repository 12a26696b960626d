import Mathlib.Data.List.ReduceOption
import Mathlib.Data.List.SplitBy

/-! Maximal runs. A list is cut into runs wherever two neighbours are not linked and nowhere else, and there
is one way to do so. In a list with gaps, what is linked to its neighbour must also follow it without a gap. -/

namespace FieldPlot

variable {β : Type}

structure MaximalRuns (Linked : β → β → Prop) (l : List β) (runs : List (List β)) : Prop where
  /-- The runs are the whole list in its order. -/
  flatten_eq : runs.flatten = l
  nil_notMem : [] ∉ runs
  linked : ∀ run ∈ runs, run.IsChain Linked
  /-- No two neighbouring runs could be one. -/
  parted : runs.IsChain fun run next => ∃ hrun hnext, ¬Linked (run.getLast hrun) (next.head hnext)

namespace MaximalRuns

variable {Linked : β → β → Prop} {l : List β} {runs : List (List β)} {a b : β}

theorem nil : MaximalRuns Linked ([] : List β) [] where
  flatten_eq := rfl
  nil_notMem := List.not_mem_nil
  linked _ hrun := nomatch hrun
  parted := .nil

theorem exists_of_cons (h : MaximalRuns Linked (b :: l) runs) :
    ∃ run others, runs = (b :: run) :: others := by
  rcases runs with _ | ⟨_ | ⟨c, run⟩, others⟩
  · exact nomatch h.flatten_eq
  · exact absurd List.mem_cons_self h.nil_notMem
  · obtain ⟨rfl, -⟩ := List.cons.inj h.flatten_eq
    exact ⟨run, others, rfl⟩

/-- An element that is not linked to the first one begins a run of its own. -/
theorem start (h : MaximalRuns Linked l runs) (ha : ∀ b ∈ l.head?, ¬Linked a b) :
    MaximalRuns Linked (a :: l) ([a] :: runs) where
  flatten_eq := congrArg (a :: ·) h.flatten_eq
  nil_notMem := List.not_mem_cons_of_ne_of_not_mem (List.cons_ne_nil _ _).symm h.nil_notMem
  linked := List.forall_mem_cons.mpr ⟨.singleton a, h.linked⟩
  parted := by
    refine List.isChain_cons.mpr ⟨fun next hnext => ?_, h.parted⟩
    cases l with
    | nil =>
      have hne : next ≠ [] := fun he => h.nil_notMem (he ▸ List.mem_of_mem_head? hnext)
      exact absurd (List.flatten_eq_nil_iff.mp h.flatten_eq next (List.mem_of_mem_head? hnext)) hne
    | cons b l =>
      obtain ⟨run, others, rfl⟩ := h.exists_of_cons
      obtain rfl := Option.some.inj hnext
      exact ⟨List.cons_ne_nil _ _, List.cons_ne_nil _ _, ha b rfl⟩

/-- An element that is linked to the first one joins its run. -/
theorem extend {run : List β} {others : List (List β)} (h : MaximalRuns Linked l ((b :: run) :: others))
    (hab : Linked a b) : MaximalRuns Linked (a :: l) ((a :: b :: run) :: others) where
  flatten_eq := congrArg (a :: ·) h.flatten_eq
  nil_notMem := List.not_mem_cons_of_ne_of_not_mem (List.cons_ne_nil _ _).symm fun hmem =>
    h.nil_notMem (List.mem_cons_of_mem _ hmem)
  linked := by
    obtain ⟨hrun, hothers⟩ := List.forall_mem_cons.mp h.linked
    exact List.forall_mem_cons.mpr ⟨.cons_cons hab hrun, hothers⟩
  parted := by
    obtain ⟨hnext, hothers⟩ := List.isChain_cons.mp h.parted
    refine List.isChain_cons.mpr ⟨fun next hmem => ?_, hothers⟩
    obtain ⟨hrun, hne, hparted⟩ := hnext next hmem
    exact ⟨List.cons_ne_nil _ _, hne, by rwa [List.getLast_cons_cons]⟩

open Classical in
theorem unique {runs' : List (List β)} (h : MaximalRuns Linked l runs) (h' : MaximalRuns Linked l runs') :
    runs = runs' := by
  have hsplit {r : List (List β)} (hr : MaximalRuns Linked l r) :
      l.splitBy (fun a b => decide (Linked a b)) = r := by
    refine List.splitBy_eq_iff.mpr ⟨hr.flatten_eq.symm, hr.nil_notMem, fun run hrun => ?_, ?_⟩
    · exact (hr.linked run hrun).imp fun _ _ hlinked => decide_eq_true hlinked
    · exact hr.parted.imp fun _ _ ⟨hrun, hnext, hparted⟩ => ⟨hrun, hnext, decide_eq_false hparted⟩
  rw [← hsplit h, hsplit h']

end MaximalRuns

/-! ### Lists with gaps -/

/-- The entries of a list with gaps, each with its place, counted from `n`. -/
def numbered (n : ℕ) (l : List (Option β)) : List (ℕ × β) :=
  (l.zipIdx n).filterMap fun (entry, i) => entry.map (i, ·)

/-- Entries without a gap between them that are related. -/
def Adjacent (R : β → β → Prop) (a b : ℕ × β) : Prop :=
  a.1 + 1 = b.1 ∧ R a.2 b.2

variable {R : β → β → Prop} {n : ℕ} {l : List (Option β)} {b c : β}

theorem numbered_none : numbered n (none :: l) = numbered (n + 1) l :=
  rfl

theorem numbered_some : numbered n (some b :: l) = (n, b) :: numbered (n + 1) l :=
  rfl

theorem le_of_mem_numbered {entry : ℕ × β} (h : entry ∈ numbered n l) : n ≤ entry.1 := by
  induction l generalizing n with
  | nil => cases h
  | cons first l ih =>
    cases first with
    | none => exact Nat.le_of_succ_le (ih h)
    | some b =>
      rcases List.mem_cons.mp h with rfl | h
      · exact Nat.le_refl n
      · exact Nat.le_of_succ_le (ih h)

/-- Behind a gap nothing is adjacent. -/
theorem not_adjacent_of_gap {entry : ℕ × β} (h : entry ∈ (numbered (n + 2) l).head?) :
    ¬Adjacent R (n, b) entry := by
  have hle := le_of_mem_numbered (List.mem_of_mem_head? h)
  exact fun hadjacent => by simp only [Adjacent] at hadjacent; omega

theorem numbered_map_range' (g : ℕ → Option β) (n m : ℕ) :
    numbered n ((List.range' n m).map g) = (List.range' n m).filterMap fun i => (g i).map (i, ·) := by
  induction m generalizing n with
  | zero => rfl
  | succ m ih =>
    rw [List.range'_succ, List.map_cons]
    cases hg : g n with
    | none => rw [numbered_none, ih, List.filterMap_cons_none (by rw [hg]; rfl)]
    | some b => rw [numbered_some, ih, List.filterMap_cons_some (by rw [hg]; rfl)]

theorem numbered_map_range (g : ℕ → Option β) (m : ℕ) :
    numbered 0 ((List.range m).map g) = (List.range m).filterMap fun i => (g i).map (i, ·) := by
  rw [List.range_eq_range', numbered_map_range']

/-! ### Cutting from the end -/

/-- `cut` goes through a list with gaps from its end, and has `out run` for each run of related entries. -/
structure CutsRuns {γ : Type} (R : β → β → Prop) (out : List β → γ) (cut : List (Option β) → List γ) : Prop where
  nil : cut [] = []
  gap (l : List (Option β)) : cut (none :: l) = cut l
  last (b : β) : cut [some b] = [out [b]]
  before_gap (b : β) (l : List (Option β)) : cut (some b :: none :: l) = out [b] :: cut l
  linked {a b : β} {l : List (Option β)} {run : List β} {others : List γ}
    (h : cut (some b :: l) = out (b :: run) :: others) (hab : R a b) :
    cut (some a :: some b :: l) = out (a :: b :: run) :: others
  parted {a b : β} {l : List (Option β)} {run : List β} {others : List γ}
    (h : cut (some b :: l) = out (b :: run) :: others) (hab : ¬R a b) :
    cut (some a :: some b :: l) = out [a] :: out (b :: run) :: others

theorem CutsRuns.maximal {γ : Type} {out : List β → γ} {cut : List (Option β) → List γ} (h : CutsRuns R out cut)
    (l : List (Option β)) (n : ℕ) : ∃ runs, cut l = runs.map (fun run => out (run.map Prod.snd)) ∧
      MaximalRuns (Adjacent R) (numbered n l) runs := by
  induction l generalizing n with
  | nil => exact ⟨[], h.nil, .nil⟩
  | cons entry l ih =>
    obtain ⟨runs, hruns, hmaximal⟩ := ih (n + 1)
    rcases entry with _ | a
    · exact ⟨runs, (h.gap l).trans hruns, hmaximal⟩
    · rcases l with _ | ⟨_ | b, l⟩
      · exact ⟨[[(n, a)]], h.last a, MaximalRuns.nil.start fun next hnext => nomatch hnext⟩
      · refine ⟨[(n, a)] :: runs, ?_, hmaximal.start fun next hnext => not_adjacent_of_gap hnext⟩
        rw [List.map_cons, ← hruns, h.before_gap, h.gap]
        rfl
      · -- The run of the next entry is the first one, and this entry joins it or stands before it.
        obtain ⟨run, others, rfl⟩ := hmaximal.exists_of_cons
        by_cases hab : R a b
        · exact ⟨((n, a) :: (n + 1, b) :: run) :: others, h.linked hruns hab, hmaximal.extend ⟨rfl, hab⟩⟩
        · refine ⟨[(n, a)] :: ((n + 1, b) :: run) :: others, h.parted hruns hab,
            hmaximal.start fun next hnext => ?_⟩
          obtain rfl := Option.some.inj hnext
          exact fun hadjacent => hab hadjacent.2

end FieldPlot
