import FieldPlot.Proofs.Scalar.Difference
import FieldPlot.Sampling.Contour

/-! Edges of a grid and where a level crosses them. Two cells with a common edge read its ends in the
same order, so the crossing belongs to the edge alone. -/

namespace FieldPlot.Sampling

/-- An edge from the vertex `i`, `j` to the next one along x or along y. -/
inductive Edge
  | alongX (i j : Nat)
  | alongY (i j : Nat)
deriving DecidableEq

namespace Edge

def first : Edge → Nat × Nat
  | alongX i j | alongY i j => (i, j)

def last : Edge → Nat × Nat
  | alongX i j => (i + 1, j)
  | alongY i j => (i, j + 1)

/-- The lower, right, upper and left edge of a cell. -/
def around (i j : Nat) : List Edge :=
  [alongX i j, alongY (i + 1) j, alongX i (j + 1), alongY i j]

def corners (i j : Nat) : List (Nat × Nat) :=
  [(i, j), (i + 1, j), (i + 1, j + 1), (i, j + 1)]

theorem around_nodup (i j : Nat) : (around i j).Nodup := by
  simp [around]

theorem mem_around_alongX {i j k l : Nat} :
    alongX k l ∈ around i j ↔ i = k ∧ (j = l ∨ j + 1 = l) := by
  simp only [around, List.mem_cons, alongX.injEq, reduceCtorEq, List.not_mem_nil, or_false, false_or]
  omega

theorem mem_around_alongY {i j k l : Nat} :
    alongY k l ∈ around i j ↔ j = l ∧ (i = k ∨ i + 1 = k) := by
  simp only [around, List.mem_cons, alongY.injEq, reduceCtorEq, List.not_mem_nil, or_false, false_or]
  omega

/-- An edge has no more than two cells. -/
theorem eq_or_eq_of_mem_around {e : Edge} {i j k l p q : Nat} (h : e ∈ around i j)
    (h' : e ∈ around k l) (hne : (i, j) ≠ (k, l)) (hpq : e ∈ around p q) :
    (p, q) = (i, j) ∨ (p, q) = (k, l) := by
  cases e with
  | alongX a b =>
    rw [mem_around_alongX] at h h' hpq
    simp only [ne_eq, Prod.mk.injEq] at hne ⊢
    omega
  | alongY a b =>
    rw [mem_around_alongY] at h h' hpq
    simp only [ne_eq, Prod.mk.injEq] at hne ⊢
    omega

end Edge

namespace Grid

section

variable {α : Type} [Scalar α]

def firstValue (g : Grid α) (e : Edge) : α :=
  (g.vertex e.first.1 e.first.2).value

def lastValue (g : Grid α) (e : Edge) : α :=
  (g.vertex e.last.1 e.last.2).value

def above (g : Grid α) (level : α) (p : Nat × Nat) : Bool :=
  decide (level ≤ (g.vertex p.1 p.2).value)

def crossed (g : Grid α) (level : α) (e : Edge) : Bool :=
  g.above level e.first != g.above level e.last

/-- The point at `t` of the edge, from 0 at its first end to 1 at its last one. -/
def spot (g : Grid α) (t : α) : Edge → Spot α
  | .alongX i j => (g.x i + t * (g.x (i + 1) - g.x i), g.y j)
  | .alongY i j => (g.x i, g.y j + t * (g.y (j + 1) - g.y j))

def passage (g : Grid α) (level : α) (e : Edge) : Spot α :=
  g.spot ((level - g.firstValue e) / (g.lastValue e - g.firstValue e)) e

/-- Whether corners of a cell lie on both sides of the level. -/
def Mixed (g : Grid α) (level : α) (i j : Nat) : Prop :=
  (∃ p ∈ Edge.corners i j, level ≤ (g.vertex p.1 p.2).value) ∧
    ∃ p ∈ Edge.corners i j, ¬level ≤ (g.vertex p.1 p.2).value

def crossedAround (g : Grid α) (level : α) (i j : Nat) : List Edge :=
  (Edge.around i j).filter (g.crossed level)

end

section

variable {α : Type} [ExactScalar α] {g : Grid α} {level : α}

theorem crossed_iff {e : Edge} : g.crossed level e = true ↔
    (g.firstValue e < level ∧ level ≤ g.lastValue e) ∨
      (g.lastValue e < level ∧ level ≤ g.firstValue e) := by
  show (decide (level ≤ g.firstValue e) != decide (level ≤ g.lastValue e)) = true ↔ _
  rw [bne_iff_ne, ne_eq, decide_eq_decide]
  by_cases hfirst : level ≤ g.firstValue e
  · simp only [hfirst, true_iff, not_le, and_true, not_lt.mpr hfirst, false_and, false_or]
  · simp only [hfirst, false_iff, not_not, and_false, or_false, not_le.mp hfirst, true_and]

theorem values_ne_of_crossed {e : Edge} (h : g.crossed level e = true) :
    g.lastValue e - g.firstValue e ≠ 0 := by
  intro hzero
  have hsame := sub_eq_zero.mp hzero
  rcases crossed_iff.mp h with ⟨hlt, hle⟩ | ⟨hlt, hle⟩ <;> rw [hsame] at * <;>
    exact absurd hle (not_le.mpr hlt)

/-- A crossed edge is crossed once, and not beyond its ends. -/
theorem exists_unique_passage {e : Edge} (h : g.crossed level e = true) :
    ∃ t, 0 ≤ t ∧ t ≤ 1 ∧ g.passage level e = g.spot t e ∧
      ∀ s, g.firstValue e + s * (g.lastValue e - g.firstValue e) = level ↔ s = t := by
  have hne := values_ne_of_crossed h
  have hbounds : 0 ≤ (level - g.firstValue e) / (g.lastValue e - g.firstValue e) ∧
      (level - g.firstValue e) / (g.lastValue e - g.firstValue e) ≤ 1 := by
    rcases crossed_iff.mp h with ⟨hlt, hle⟩ | ⟨hlt, hle⟩
    · have hd : 0 < g.lastValue e - g.firstValue e := by linarith
      rw [div_le_one hd]
      exact ⟨div_nonneg (by linarith) hd.le, by linarith⟩
    · have hd : g.lastValue e - g.firstValue e < 0 := by linarith
      rw [div_le_one_of_neg hd]
      exact ⟨div_nonneg_of_nonpos (by linarith) hd.le, by linarith⟩
  refine ⟨_, hbounds.1, hbounds.2, rfl, ?_⟩
  intro s
  rw [eq_div_iff hne, eq_sub_iff_add_eq']

end

variable {α : Type} [Scalar α] {g : Grid α} {level : α} {i j : Nat}

theorem cell_crossing_eq [SeparatingScalar α] (level a b : α) (spot : α → Spot α) :
    Cell.crossing level a b spot =
      .ok (if decide (level ≤ a) != decide (level ≤ b) then some (spot ((level - a) / (b - a)))
        else none) := by
  cases h : decide (level ≤ a) != decide (level ≤ b) with
  | false => simp only [Cell.crossing, h, Bool.false_eq_true, if_false]
  | true =>
    have hne : (b - a == 0.0) = false := by
      rw [Bool.eq_false_iff]
      intro hzero
      rw [decide_eq_decide.mpr (SeparatingScalar.le_iff_of_sub_eq_zero hzero level), bne_self_eq_false] at h
      cases h
    simp only [Cell.crossing, h, if_true, Cell.parameter, Scalar.divide, hne, Bool.false_eq_true, if_false]
    rfl

theorem filterMap_ite {β γ : Type} (p : β → Bool) (f : β → γ) (l : List β) :
    (l.map fun b => if p b then some (f b) else none).filterMap id = (l.filter p).map f := by
  induction l with
  | nil => rfl
  | cons b l ih =>
    cases hp : p b with
    | false => simpa [hp] using ih
    | true => simpa [hp] using ih

/-- A cell with valid corners computes the crossings of its edges. -/
theorem cell_crossings_eq [SeparatingScalar α] {c : Cell α} (h : g.cell? i j = some c) :
    c.crossings level = .ok ((g.crossedAround level i j).map (g.passage level)) := by
  rw [cell?] at h
  split at h
  · cases h
    rw [crossedAround, ← filterMap_ite]
    simp only [Cell.crossings, cell_crossing_eq]
    rfl
  · cases h

theorem cell_isSome_iff : (g.cell? i j).isSome = true ↔
    ∀ p ∈ Edge.corners i j, (g.vertex p.1 p.2).valid = true := by
  rw [cell?]
  split
  · next h => simpa [Edge.corners, and_assoc] using h
  · next h => simpa [Edge.corners, and_assoc] using h

theorem mixed_iff : g.Mixed level i j ↔
    (∃ p ∈ Edge.corners i j, g.above level p = true) ∧
      ∃ p ∈ Edge.corners i j, g.above level p = false := by
  simp only [Mixed, above, decide_eq_true_eq, decide_eq_false_iff_not]

theorem crossedAround_length (g : Grid α) (level : α) (i j : Nat) :
    (g.Mixed level i j → (g.crossedAround level i j).length = 2 ∨
      (g.crossedAround level i j).length = 4) ∧
    (¬g.Mixed level i j → (g.crossedAround level i j).length = 0) := by
  rw [crossedAround, ← List.countP_eq_length_filter, mixed_iff]
  rcases Bool.eq_false_or_eq_true (g.above level (i, j)) with ha | ha <;>
    rcases Bool.eq_false_or_eq_true (g.above level (i + 1, j)) with hb | hb <;>
    rcases Bool.eq_false_or_eq_true (g.above level (i + 1, j + 1)) with hc | hc <;>
    rcases Bool.eq_false_or_eq_true (g.above level (i, j + 1)) with hd | hd <;>
    simp [Edge.around, Edge.corners, Edge.first, Edge.last, crossed,
      ha, hb, hc, hd]

end Grid

end FieldPlot.Sampling
