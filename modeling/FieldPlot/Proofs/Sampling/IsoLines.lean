import FieldPlot.Proofs.Outcome
import FieldPlot.Proofs.Sampling.Edges

/-! Iso-lines are watertight. Their segments are pairs of crossed edges, and an edge between two valid
cells occurs in one segment of each or in none. -/

namespace FieldPlot.Sampling

section

variable {β γ : Type}

/-- The first and second entry of a list, the third and fourth, and so on. -/
def pairs : List β → List (β × β)
  | a :: b :: rest => (a, b) :: pairs rest
  | _ => []

def ends (s : List (β × β)) : List β :=
  s.flatMap fun p => [p.1, p.2]

theorem join_map (f : β → Spot γ) (l : List β) :
    Cell.join (l.map f) = (pairs l).map (Prod.map f f) := by
  fun_induction pairs l with
  | case1 a b rest ih => exact congrArg (_ :: ·) ih
  | case2 l hl =>
    match l, hl with
    | [], _ | [_], _ => rfl
    | a :: b :: rest, hl => exact absurd rfl (hl a b rest)

theorem ends_pairs {l : List β} (h : l.length % 2 = 0) : ends (pairs l) = l := by
  fun_induction pairs l with
  | case1 a b rest ih =>
    have hrest : rest.length % 2 = 0 := by
      simp only [List.length_cons] at h
      omega
    exact congrArg (a :: b :: ·) (ih hrest)
  | case2 l hl =>
    match l, hl with
    | [], _ => rfl
    | [_], _ => simp at h
    | a :: b :: rest, hl => exact absurd rfl (hl a b rest)

theorem pairs_eq_nil_iff {l : List β} (h : l.length % 2 = 0) : pairs l = [] ↔ l.length = 0 := by
  constructor
  · intro hpairs
    rw [← ends_pairs h, hpairs]
    rfl
  · intro hlength
    rw [List.eq_nil_of_length_eq_zero hlength]
    rfl

theorem sum_of_two [DecidableEq β] {l : List β} {p q : β} {f : β → Nat} (hl : l.Nodup) (hp : p ∈ l)
    (hq : q ∈ l) (hpq : p ≠ q) (hf : ∀ r ∈ l, f r ≠ 0 → r = p ∨ r = q) :
    (l.map f).sum = f p + f q := by
  rw [← List.sum_toFinset f hl, ← Finset.sum_pair hpq]
  refine (Finset.sum_subset ?_ ?_).symm
  · intro r hr
    rcases Finset.mem_insert.mp hr with rfl | hr
    · exact List.mem_toFinset.mpr hp
    · rw [Finset.mem_singleton.mp hr]
      exact List.mem_toFinset.mpr hq
  · intro r hr hout
    by_contra hne
    rcases hf r (List.mem_toFinset.mp hr) hne with rfl | rfl <;> simp at hout

end

namespace Grid

section

variable {α : Type} [Scalar α]

/-- The segments of a cell, each by the two edges that it joins. -/
def trace (g : Grid α) (level : α) (p : Nat × Nat) : List (Edge × Edge) :=
  if (g.cell? p.1 p.2).isSome then pairs (g.crossedAround level p.1 p.2) else []

/-- The cells in the order in which an iso-line visits them. -/
def places (g : Grid α) : List (Nat × Nat) :=
  List.range (g.xs.size - 1) ×ˢ List.range (g.ys.size - 1)

def traces (g : Grid α) (level : α) : List (Edge × Edge) :=
  g.places.flatMap (g.trace level)

def drawn (g : Grid α) (level : α) (s : Edge × Edge) : Spot α × Spot α :=
  Prod.map (g.passage level) (g.passage level) s

variable {g : Grid α} {level : α} {i j : Nat}

theorem crossedAround_even (g : Grid α) (level : α) (i j : Nat) :
    (g.crossedAround level i j).length % 2 = 0 := by
  have hlength := crossedAround_length g level i j
  by_cases hmixed : g.Mixed level i j
  · rcases hlength.1 hmixed with h | h <;> rw [h]
  · rw [hlength.2 hmixed]

theorem ends_trace (hcell : (g.cell? i j).isSome = true) :
    ends (g.trace level (i, j)) = g.crossedAround level i j := by
  rw [trace, if_pos hcell, ends_pairs (crossedAround_even g level i j)]

theorem trace_ne_nil_iff : g.trace level (i, j) ≠ [] ↔
    (g.cell? i j).isSome = true ∧ g.Mixed level i j := by
  have hlength := crossedAround_length g level i j
  by_cases hcell : (g.cell? i j).isSome = true
  · rw [trace, if_pos hcell, ne_eq, pairs_eq_nil_iff (crossedAround_even g level i j)]
    by_cases hmixed : g.Mixed level i j
    · simp only [hcell, hmixed, and_self, iff_true]
      rcases hlength.1 hmixed with h | h <;> omega
    · simp only [hmixed, and_false, iff_false, not_not]
      exact hlength.2 hmixed
  · simp only [trace, hcell, false_and, iff_false, not_not, Bool.false_eq_true, if_false]

theorem cell_segments_eq [SeparatingScalar α] {c : Cell α} (h : g.cell? i j = some c) :
    c.segments level = .ok ((g.trace level (i, j)).map (g.drawn level)) := by
  rw [trace, h, Cell.segments, cell_crossings_eq h]
  exact congrArg Except.ok (join_map ..)

theorem count_ends_trace {e : Edge} (hcell : (g.cell? i j).isSome = true)
    (he : e ∈ Edge.around i j) :
    (ends (g.trace level (i, j))).count e = if g.crossed level e then 1 else 0 := by
  rw [ends_trace hcell, crossedAround]
  cases hcrossed : g.crossed level e with
  | true =>
    rw [List.count_filter hcrossed]
    exact List.count_eq_one_of_mem (Edge.around_nodup i j) he
  | false =>
    refine List.count_eq_zero_of_not_mem fun hmem => ?_
    rw [List.mem_filter, hcrossed] at hmem
    cases hmem.2

theorem mem_around_of_mem_ends_trace {e : Edge} (he : e ∈ ends (g.trace level (i, j))) :
    e ∈ Edge.around i j := by
  by_cases hcell : (g.cell? i j).isSome = true
  · rw [ends_trace hcell] at he
    exact List.mem_of_mem_filter he
  · rw [trace, if_neg hcell] at he
    cases he

/-- An edge between two valid cells of the grid ends a segment of each of them or none at all. -/
theorem count_ends_traces {e : Edge} {k l : Nat} (hne : (i, j) ≠ (k, l))
    (he : e ∈ Edge.around i j) (he' : e ∈ Edge.around k l) (hplace : (i, j) ∈ g.places)
    (hplace' : (k, l) ∈ g.places) (hcell : (g.cell? i j).isSome = true)
    (hcell' : (g.cell? k l).isSome = true) :
    (ends (g.traces level)).count e = if g.crossed level e then 2 else 0 := by
  have hnodup : g.places.Nodup := List.nodup_range.product List.nodup_range
  have hsum : (ends (g.traces level)).count e =
      (g.places.map fun p => (ends (g.trace level p)).count e).sum := by
    rw [ends, traces, List.flatMap_assoc, List.count_flatMap]
    rfl
  rw [hsum, sum_of_two hnodup hplace hplace' hne, count_ends_trace hcell he,
    count_ends_trace hcell' he']
  · cases g.crossed level e <;> rfl
  · intro p _ hcount
    have hmem := mem_around_of_mem_ends_trace (List.count_pos_iff.mp (Nat.pos_of_ne_zero hcount))
    exact Edge.eq_or_eq_of_mem_around he he' hne hmem

theorem contour_eq [SeparatingScalar α] (g : Grid α) (level : α) :
    g.contour level = .ok ((g.traces level).map (g.drawn level)) := by
  rw [contour, mapM_eq_map fun i =>
    (List.range (g.ys.size - 1)).flatMap fun j => (g.trace level (i, j)).map (g.drawn level)]
  · refine congrArg Except.ok ?_
    show _ = (List.flatMap _ (List.flatMap _ _)).map _
    rw [← List.flatMap_def, List.flatMap_assoc, List.map_flatMap]
    simp only [List.flatMap_map, List.map_flatMap]
  · intro i _
    rw [mapM_eq_map fun j => (g.trace level (i, j)).map (g.drawn level)]
    · rw [List.flatMap_def]
      rfl
    · intro j _
      cases h : g.cell? i j with
      | some c => exact cell_segments_eq h
      | none =>
        rw [trace, h]
        rfl

end

variable {α : Type} [ExactScalar α]

/-- What makes the iso-line of a level watertight. Ends of segments are counted by edges, since the
crossings of two edges fall together in a corner that has the value of the level. -/
structure Watertight (g : Grid α) (level : α) : Prop where
  contour_eq : g.contour level = .ok ((g.traces level).map (g.drawn level))
  has_segments : ∀ i j, g.trace level (i, j) ≠ [] ↔
    (∀ p ∈ Edge.corners i j, (g.vertex p.1 p.2).valid = true) ∧ g.Mixed level i j
  two_or_four : ∀ i j, g.trace level (i, j) ≠ [] →
    (g.crossedAround level i j).length = 2 ∨ (g.crossedAround level i j).length = 4
  interpolated : ∀ e, g.crossed level e = true →
    ∃ t, 0 ≤ t ∧ t ≤ 1 ∧ g.passage level e = g.spot t e ∧
      ∀ s, g.firstValue e + s * (g.lastValue e - g.firstValue e) = level ↔ s = t
  of_cell : ∀ i j c, g.cell? i j = some c →
    c.crossings level = .ok ((g.crossedAround level i j).map (g.passage level)) ∧
    c.segments level = .ok ((g.trace level (i, j)).map (g.drawn level))
  ends_once : ∀ i j, (g.cell? i j).isSome = true → ∀ e ∈ Edge.around i j,
    (ends (g.trace level (i, j))).count e = if g.crossed level e then 1 else 0
  ends_twice : ∀ e i j k l, (i, j) ≠ (k, l) → e ∈ Edge.around i j → e ∈ Edge.around k l →
    (i, j) ∈ g.places → (k, l) ∈ g.places → (g.cell? i j).isSome = true →
    (g.cell? k l).isSome = true →
    (ends (g.traces level)).count e = if g.crossed level e then 2 else 0

/-- The iso-line of a level is drawn without a division by zero and does not end inside of the grid.
A cell has segments exactly if its corners are valid and lie on both sides of the level. It is then
crossed on two or four edges, each at the one point where the interpolated value is the level, and each
crossing ends one of its segments. The crossing of an edge does not depend on the cell that it is seen
from, so that an edge between two valid cells ends one segment of each or none. -/
theorem contour_watertight (g : Grid α) (level : α) : Watertight g level where
  contour_eq := contour_eq g level
  has_segments i j := by
    rw [trace_ne_nil_iff, cell_isSome_iff]
  two_or_four i j htrace := (crossedAround_length g level i j).1 (trace_ne_nil_iff.mp htrace).2
  interpolated _ he := exists_unique_passage he
  of_cell _ _ _ hc := ⟨cell_crossings_eq hc, cell_segments_eq hc⟩
  ends_once _ _ hcell _ he := count_ends_trace hcell he
  ends_twice _ _ _ _ _ hne he he' hplace hplace' hcell hcell' :=
    count_ends_traces hne he he' hplace hplace' hcell hcell'

end Grid

end FieldPlot.Sampling
