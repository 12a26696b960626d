import FieldPlot.Proofs.Sampling.Totality
import FieldPlot.Proofs.Sampling.Vertices
import FieldPlot.Proofs.Scalar.StrictOrder

/-! Levels between the extremes of a grid. From a vertex below a level to one that reaches it there is a way
over cells with a common corner, so that some cell has corners on both sides and the level is drawn. This takes
no more than an order, and doubles have one; that levels are between the extremes is true of exact numbers. -/

namespace FieldPlot.Sampling

section

variable {α : Type}

/-! ### Extremes -/

theorem foldl_pick_mem {pick : α → α → α} (hpick : ∀ a b, pick a b = a ∨ pick a b = b) (a : α)
    (values : List α) : values.foldl pick a ∈ a :: values := by
  refine List.foldlRecOn values pick List.mem_cons_self fun b hb c hc => ?_
  rcases hpick b c with h | h
  · rwa [h]
  · rw [h]
    exact List.mem_cons_of_mem _ hc

theorem Grid.mem_of_mem_byPrecedence {values : List α} {a : α} (h : a ∈ byPrecedence values) : a ∈ values := by
  have hlane {p : α × ℕ → Bool} (h : a ∈ (values.zipIdx.reverse.filter p).map (·.1)) : a ∈ values := by
    obtain ⟨entry, hentry, rfl⟩ := List.mem_map.mp h
    exact List.fst_mem_of_mem_zipIdx (List.mem_reverse.mp (List.mem_of_mem_filter hentry))
  unfold byPrecedence at h
  rw [List.partition_eq_filter_filter] at h
  dsimp only at h
  split at h
  · simp only [List.mem_append] at h
    rcases h with (h | h) | h
    · exact hlane (List.mem_of_mem_take h)
    · exact hlane h
    · exact hlane (List.mem_of_mem_drop h)
  · rcases List.mem_append.mp h with h | h
    · exact hlane h
    · exact hlane h

variable [Scalar α]

theorem mem_of_smallest? {values : List α} {a : α} (h : Scalar.smallest? values = some a) : a ∈ values := by
  cases values with
  | nil => cases h
  | cons b values => exact Option.some.inj h ▸ foldl_pick_mem (fun _ _ => (ite_eq_or_eq _ _ _).symm) b values

theorem mem_of_largest? {values : List α} {a : α} (h : Scalar.largest? values = some a) : a ∈ values := by
  cases values with
  | nil => cases h
  | cons b values => exact Option.some.inj h ▸ foldl_pick_mem (fun _ _ => (ite_eq_or_eq _ _ _).symm) b values

namespace Grid

variable {g : Grid α} {lo hi level : α} {i j : ℕ}

/-- The extremes are values of vertices. -/
theorem Full.exists_extremes (h : g.Full) (hrange : g.valueRange = some (lo, hi)) :
    (∃ i < g.xs.size, ∃ j < g.ys.size, (g.vertex i j).value = lo) ∧
      ∃ i < g.xs.size, ∃ j < g.ys.size, (g.vertex i j).value = hi := by
  have hvertex {a : α} (ha : a ∈ byPrecedence ((g.vertexList.filter (·.valid)).map (·.value))) :
      ∃ i < g.xs.size, ∃ j < g.ys.size, (g.vertex i j).value = a := by
    obtain ⟨v, hv, rfl⟩ := List.mem_map.mp (mem_of_mem_byPrecedence ha)
    obtain ⟨i, hi, j, hj, rfl⟩ := h.mem_vertexList.mp (List.mem_of_mem_filter hv)
    exact ⟨i, hi, j, hj, rfl⟩
  unfold valueRange at hrange
  dsimp only at hrange
  split at hrange
  · next hlo hhi =>
    obtain ⟨rfl, rfl⟩ := Prod.mk.inj (Option.some.inj hrange)
    exact ⟨hvertex (mem_of_smallest? hlo), hvertex (mem_of_largest? hhi)⟩
  · cases hrange

/-! ### Cells that a level passes -/

/-- A grid of at least one cell in each direction, without a hole. -/
structure Whole (g : Grid α) : Prop extends g.Full where
  manyX : 2 ≤ g.xs.size
  manyY : 2 ≤ g.ys.size
  valid : ∀ i < g.xs.size, ∀ j < g.ys.size, (g.vertex i j).valid = true

omit [Scalar α] in
theorem mem_places : (i, j) ∈ g.places ↔ i + 1 < g.xs.size ∧ j + 1 < g.ys.size := by
  refine List.pair_mem_product.trans ?_
  rw [List.mem_range, List.mem_range]
  omega

theorem Whole.cell_isSome (h : g.Whole) (hplace : (i, j) ∈ g.places) : (g.cell? i j).isSome = true := by
  obtain ⟨hi, hj⟩ := mem_places.mp hplace
  rw [cell_isSome_iff]
  intro p hp
  simp only [Edge.corners, List.mem_cons, List.not_mem_nil, or_false] at hp
  rcases hp with rfl | rfl | rfl | rfl <;> exact h.valid _ (by omega) _ (by omega)

theorem above_eq_of_not_mixed (h : ¬g.Mixed level i j) {p q : ℕ × ℕ} (hp : p ∈ Edge.corners i j)
    (hq : q ∈ Edge.corners i j) : g.above level p = g.above level q := by
  by_contra hne
  refine h (mixed_iff.mpr ?_)
  cases hp' : g.above level p with
  | true => exact ⟨⟨p, hp, hp'⟩, q, hq, by simpa [hp'] using hne⟩
  | false => exact ⟨⟨q, hq, by simpa [hp'] using hne⟩, p, hp, hp'⟩

/-- If no cell has corners on both sides, going from vertex to vertex never changes sides. -/
theorem Whole.above_eq (h : g.Whole) (hnone : ∀ i j, (i, j) ∈ g.places → ¬g.Mixed level i j) (hi : i < g.xs.size)
    (hj : j < g.ys.size) : g.above level (i, j) = g.above level (0, 0) := by
  have hx := h.manyX
  have hy := h.manyY
  -- A vertex at the far end of a row or column is a corner of the cell before it.
  have hcolumn : ∀ i < g.xs.size, g.above level (i, 0) = g.above level (0, 0) := by
    intro i hi
    induction i with
    | zero => rfl
    | succ i ih =>
      rw [← ih (by omega)]
      exact above_eq_of_not_mixed (hnone i 0 (mem_places.mpr (by omega))) (by simp [Edge.corners])
        (by simp [Edge.corners])
  induction j with
  | zero => exact hcolumn i hi
  | succ j ih =>
    rw [← ih (by omega)]
    by_cases hlast : i + 1 < g.xs.size
    · exact above_eq_of_not_mixed (hnone i j (mem_places.mpr (by omega))) (by simp [Edge.corners])
        (by simp [Edge.corners])
    · obtain ⟨k, rfl⟩ : ∃ k, i = k + 1 := ⟨i - 1, by omega⟩
      exact above_eq_of_not_mixed (hnone k j (mem_places.mpr (by omega))) (by simp [Edge.corners])
        (by simp [Edge.corners])

theorem Whole.exists_mixed [StrictlyOrderedScalar α] (h : g.Whole) (hrange : g.valueRange = some (lo, hi))
    (hlo : lo < level) (hhi : level ≤ hi) : ∃ i j, (i, j) ∈ g.places ∧ g.Mixed level i j := by
  obtain ⟨⟨i, hi, j, hj, hbelow⟩, k, hk, l, hl, habove⟩ := h.exists_extremes hrange
  by_contra hnone
  have hside (i j : ℕ) (hplace : (i, j) ∈ g.places) : ¬g.Mixed level i j :=
    fun hmixed => hnone ⟨i, j, hplace, hmixed⟩
  have hsame := (h.above_eq hside hi hj).trans (h.above_eq hside hk hl).symm
  simp only [above, hbelow, habove, hhi, decide_true, decide_eq_true_iff] at hsame
  exact (StrictlyOrderedScalar.lt_iff.mp hlo).2 hsame

theorem contour_ne_nil [SeparatingScalar α] (hplace : (i, j) ∈ g.places) (hcell : (g.cell? i j).isSome = true)
    (hmixed : g.Mixed level i j) : ∃ s rest, g.contour level = .ok (s :: rest) := by
  obtain ⟨e, he⟩ := List.exists_mem_of_ne_nil _ (trace_ne_nil_iff.mpr ⟨hcell, hmixed⟩)
  have hdrawn : (g.traces level).map (g.drawn level) ≠ [] :=
    List.ne_nil_of_mem (List.mem_map_of_mem (List.mem_flatMap.mpr ⟨(i, j), hplace, he⟩))
  obtain ⟨s, rest, hsegments⟩ := List.exists_cons_of_ne_nil hdrawn
  exact ⟨s, rest, (contour_eq g level).trans (congrArg Except.ok hsegments)⟩

end Grid

end

/-! ### Levels between two numbers -/

section

variable {α : Type} [LawfulScalar α] {lo hi : α} {count : ℤ} {k l : ℕ}

/-- The level number `k` of `count`, from 0. -/
def levelAt (lo hi : α) (count : ℤ) (k : ℕ) : α :=
  lo + (k + 1) * ((hi - lo) / (count + 1))

theorem contourLevels_eq (h : lo < hi) (count : ℤ) :
    contourLevels lo hi count = .ok ((List.range count.toNat).map (levelAt lo hi count)) := by
  unfold contourLevels
  rw [LawfulScalar.isFinite_eq, LawfulScalar.isFinite_eq, ExactScalar.beq_eq, decide_eq_false h.ne]
  by_cases hcount : 0 < count
  · have hparts : ((count + 1 : ℤ) : α) ≠ 0 := Int.cast_ne_zero.mpr (by omega)
    rw [decide_eq_true hcount, Scalar.ofInt?_eq, ok_bind]
    refine mapM_eq_map (levelAt lo hi count) fun k _ => ?_
    rw [Scalar.ofNat_eq, Scalar.divide_of_ne_zero hparts, ok_bind]
    refine congrArg Except.ok ?_
    unfold levelAt
    push_cast
    ring
  · have hnone : count.toNat = 0 := by omega
    rw [decide_eq_false hcount, hnone]
    rfl

theorem levelAt_lt (h : lo < hi) (hcount : 0 < count) (hkl : k < l) :
    levelAt lo hi count k < levelAt lo hi count l := by
  have hparts : (0 : α) < count + 1 := by positivity
  have hgap : 0 < (hi - lo) / (count + 1) := div_pos (sub_pos.mpr h) hparts
  have hstep : (k : α) + 1 < l + 1 := add_lt_add_left (Nat.cast_lt.mpr hkl) 1
  exact add_lt_add_right (mul_lt_mul_of_pos_right hstep hgap) lo

theorem levelAt_inside (h : lo < hi) (hk : k < count.toNat) :
    lo < levelAt lo hi count k ∧ levelAt lo hi count k < hi := by
  have hcount : ((k + 1 : ℕ) : α) < ((count + 1 : ℤ) : α) := by
    rw [← Int.cast_natCast, Int.cast_lt]
    omega
  push_cast at hcount
  have hfirst : (0 : α) < k + 1 := by positivity
  have hgap : 0 < (hi - lo) / (count + 1) := div_pos (sub_pos.mpr h) (hfirst.trans hcount)
  have hspan : (count + 1) * ((hi - lo) / (count + 1)) = hi - lo := mul_div_cancel₀ _ (hfirst.trans hcount).ne'
  have hlast := mul_lt_mul_of_pos_right hcount hgap
  unfold levelAt
  constructor
  · exact lt_add_of_pos_right lo (mul_pos hfirst hgap)
  · linarith

/-- Numbers that cut the way from `lo` to `hi` into equal parts. -/
structure CutsEvenly (lo hi : α) (count : ℤ) (levels : List α) : Prop where
  length : levels.length = count.toNat
  even : ∀ k (hk : k < levels.length), levels[k] = lo + (k + 1) * ((hi - lo) / (count + 1))
  increasing : levels.Pairwise (· < ·)
  inside : ∀ level ∈ levels, lo < level ∧ level < hi

theorem cutsEvenly_levels (h : lo < hi) (count : ℤ) :
    CutsEvenly lo hi count ((List.range count.toNat).map (levelAt lo hi count)) where
  length := by rw [List.length_map, List.length_range]
  even k hk := by rw [List.getElem_map, List.getElem_range, levelAt]
  increasing := by
    refine List.pairwise_map.mpr (List.pairwise_lt_range.imp_of_mem fun hk _ hkl => ?_)
    have := List.mem_range.mp hk
    exact levelAt_lt h (by omega) hkl
  inside level hlevel := by
    obtain ⟨k, hk, rfl⟩ := List.mem_map.mp hlevel
    exact levelAt_inside h (List.mem_range.mp hk)

end

/-- A grid without holes has a segment at every level above its least value and up to its largest one, in doubles
as well as in exact numbers. In exact numbers, the levels that are drawn cut the way between these two into equal
parts and are strictly between them, so that each of them has a segment. -/
theorem intermediate_levels_drawn :
    (∀ {α : Type} [Scalar α] [StrictlyOrderedScalar α] [SeparatingScalar α] {g : Grid α} {lo hi level : α},
      g.Whole → g.valueRange = some (lo, hi) → lo < level → level ≤ hi →
        ∃ s rest, g.contour level = .ok (s :: rest)) ∧
    ∀ {α : Type} [LawfulScalar α] {lo hi : α} (count : ℤ), lo < hi →
      ∃ levels, contourLevels lo hi count = .ok levels ∧ CutsEvenly lo hi count levels ∧
        ∀ {g : Grid α}, g.Whole → g.valueRange = some (lo, hi) →
          ∀ level ∈ levels, ∃ s rest, g.contour level = .ok (s :: rest) := by
  have hdrawn {α : Type} [Scalar α] [StrictlyOrderedScalar α] [SeparatingScalar α] {g : Grid α} {lo hi level : α}
      (h : g.Whole) (hrange : g.valueRange = some (lo, hi)) (hlo : lo < level) (hhi : level ≤ hi) :
      ∃ s rest, g.contour level = .ok (s :: rest) := by
    obtain ⟨i, j, hplace, hmixed⟩ := h.exists_mixed hrange hlo hhi
    exact Grid.contour_ne_nil hplace (h.cell_isSome hplace) hmixed
  refine ⟨hdrawn, fun {α} _ {lo hi} count hlt => ?_⟩
  have hcuts := cutsEvenly_levels hlt count
  refine ⟨_, contourLevels_eq hlt count, hcuts, fun {g} h hrange level hlevel => ?_⟩
  obtain ⟨hlo, hhi⟩ := hcuts.inside level hlevel
  exact hdrawn h hrange hlo hhi.le

/-- One cell, with `a` at its lower corners and `b` at its upper ones. -/
def ramp {α : Type} [Scalar α] (a b : α) : Grid α :=
  ⟨#[0.0, 1.0], #[0.0, 1.0], #[#[⟨a, a, true⟩, ⟨b, b, true⟩], #[⟨a, a, true⟩, ⟨b, b, true⟩]]⟩

theorem ramp_whole {α : Type} [Scalar α] (a b : α) : (ramp a b).Whole where
  rows := rfl
  columns row hrow := by
    have hrow : row = #[⟨a, a, true⟩, ⟨b, b, true⟩] := by simpa [ramp] using hrow
    rw [hrow]
    rfl
  manyX := le_rfl
  manyY := le_rfl
  valid i hi j hj := by
    have hi : i < 2 := hi
    have hj : j < 2 := hj
    interval_cases i <;> interval_cases j <;> rfl

/-- The largest value has a segment of its own, and so has each of three levels below it. -/
theorem intermediate_levels_drawn_ramp : (ramp 0 1 : Grid ℚ).Whole ∧
    (ramp 0 1 : Grid ℚ).valueRange = some (0, 1) ∧ (∃ s rest, (ramp 0 1 : Grid ℚ).contour 1 = .ok (s :: rest)) ∧
    ∃ levels, contourLevels (0 : ℚ) 1 3 = .ok levels ∧ levels.length = 3 ∧
      ∀ level ∈ levels, ∃ s rest, (ramp 0 1 : Grid ℚ).contour level = .ok (s :: rest) := by
  have hrange : (ramp 0 1 : Grid ℚ).valueRange = some (0, 1) := by decide +kernel
  obtain ⟨levels, hlevels, hcuts, hdrawn⟩ := intermediate_levels_drawn.2 (α := ℚ) 3 zero_lt_one
  exact ⟨ramp_whole 0 1, hrange, intermediate_levels_drawn.1 (ramp_whole 0 1) hrange zero_lt_one le_rfl,
    levels, hlevels, hcuts.length, hdrawn (ramp_whole 0 1) hrange⟩

/-- The way between two doubles may be too long for one: the level in the middle between -1e308 and 1e308 is
infinite, and has no segment. -/
theorem level_beyond_range : (ramp (-1e308) 1e308 : Grid Float).Whole ∧
    (ramp (-1e308) 1e308 : Grid Float).valueRange = some (-1e308, 1e308) ∧ (-1e308 : Float) < 1e308 ∧
    contourLevels (-1e308 : Float) 1e308 1 = .ok [Number.infinity] ∧ ¬Number.infinity < (1e308 : Float) ∧
    (ramp (-1e308) 1e308 : Grid Float).contour Number.infinity = .ok [] :=
  ⟨ramp_whole _ _, by decide +kernel, by decide +kernel, by decide +kernel, by decide +kernel, by decide +kernel⟩

end FieldPlot.Sampling
