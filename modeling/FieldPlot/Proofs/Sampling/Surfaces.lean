import FieldPlot.Proofs.Sampling.Positions
import FieldPlot.Proofs.Sampling.Vertices
import FieldPlot.Proofs.Scalar.Ordered

/-! Sampled surfaces in exact numbers. The heights of a mesh are its values, moved into the value range one by
one or scaled together; either way they are proportional to the values that the grid keeps. -/

namespace FieldPlot.Sampling

open Vectors (SurfaceMode Vec)

variable {α : Type}

/-! ### Peaks -/

/-- The largest absolute value of a list; 0 for an empty one. -/
def peakOf [Scalar α] (values : List α) : α :=
  (Scalar.largest? (values.map Scalar.abs)).getD 0.0

theorem Grid.peak_eq [Scalar α] (g : Grid α) : g.peak = peakOf g.values := by
  simp [peak, peakOf, values, Function.comp_def]

variable [LawfulScalar α] {values : List α} {a k : α}

theorem peakOf_cases (values : List α) : values = [] ∧ peakOf values = 0 ∨
    (∃ a ∈ values, |a| = peakOf values) ∧ ∀ a ∈ values, |a| ≤ peakOf values := by
  unfold peakOf
  cases h : Scalar.largest? (values.map Scalar.abs) with
  | none =>
    cases values with
    | nil => exact .inl ⟨rfl, Scalar.literal_zero⟩
    | cons a values => cases h
  | some m =>
    rw [Scalar.largest?_eq_some] at h
    simpa [LawfulScalar.abs_eq] using Or.inr h

theorem abs_le_peakOf (ha : a ∈ values) : |a| ≤ peakOf values := by
  rcases peakOf_cases values with ⟨rfl, -⟩ | ⟨-, hle⟩
  · cases ha
  · exact hle a ha

theorem peakOf_nonneg (values : List α) : 0 ≤ peakOf values := by
  rcases peakOf_cases values with ⟨-, hzero⟩ | ⟨⟨a, -, ha⟩, -⟩
  · exact hzero.ge
  · exact ha ▸ abs_nonneg a

theorem peakOf_le {m : α} (hm : 0 ≤ m) (h : ∀ a ∈ values, |a| ≤ m) : peakOf values ≤ m := by
  rcases peakOf_cases values with ⟨-, hzero⟩ | ⟨⟨a, ha, heq⟩, -⟩
  · exact hzero ▸ hm
  · exact heq ▸ h a ha

theorem peakOf_map_mul (hk : 0 ≤ k) (values : List α) : peakOf (values.map (k * ·)) = k * peakOf values := by
  apply le_antisymm
  · refine peakOf_le (mul_nonneg hk (peakOf_nonneg values)) fun b hb => ?_
    obtain ⟨a, ha, rfl⟩ := List.mem_map.mp hb
    rw [abs_mul, abs_of_nonneg hk]
    exact mul_le_mul_of_nonneg_left (abs_le_peakOf ha) hk
  · rcases peakOf_cases values with ⟨rfl, hzero⟩ | ⟨⟨a, ha, heq⟩, -⟩
    · rw [hzero, mul_zero]
      exact peakOf_nonneg _
    · rw [← heq, ← abs_of_nonneg hk, ← abs_mul, abs_of_nonneg hk]
      exact abs_le_peakOf (List.mem_map_of_mem ha)

namespace Grid

variable {g : Grid α}

theorem peak_nonneg (g : Grid α) : 0 ≤ g.peak := by
  rw [peak_eq]
  exact peakOf_nonneg _

theorem Full.abs_value_le (h : g.Full) (i j : ℕ) : |(g.vertex i j).value| ≤ g.peak := by
  by_cases hij : i < g.xs.size ∧ j < g.ys.size
  · rw [peak_eq]
    exact abs_le_peakOf (List.mem_map_of_mem (h.mem_vertexList.mpr ⟨i, hij.1, j, hij.2, rfl⟩))
  · rw [h.vertex_outside hij, Scalar.literal_zero, abs_zero]
    exact peak_nonneg g

/-- The heights of the mesh are `k` times the values, beyond the grid as well. -/
structure Proportional (g : Grid α) (k : α) : Prop extends g.Full where
  nonneg : 0 ≤ k
  height_eq : ∀ i j, (g.vertex i j).height = k * (g.vertex i j).value

theorem Proportional.peakHeight_eq (h : g.Proportional k) : g.peakHeight = k * g.peak := by
  have hheights : g.vertexList.map (·.height) = g.values.map (k * ·) := by
    rw [values, List.map_map]
    refine List.map_congr_left fun v hv => ?_
    obtain ⟨i, -, j, -, rfl⟩ := h.mem_vertexList.mp hv
    exact h.height_eq i j
  rw [peak_eq, ← peakOf_map_mul h.nonneg, ← hheights]
  simp [peakHeight, peakOf, Function.comp_def]

end Grid

/-! ### Heights -/

theorem confine_eq (lo hi a : α) : confine lo hi a = min (max a lo) hi := by
  have hlower : (if a < lo then lo else a) = max a lo := by
    split
    · next h => exact (max_eq_right h.le).symm
    · next h => exact (max_eq_left (not_lt.mp h)).symm
  unfold confine
  rw [Scalar.isUndefined_eq_false, Scalar.isUndefined_eq_false, if_neg Bool.false_ne_true, if_neg Bool.false_ne_true,
    hlower]
  dsimp only
  split
  · next h => exact (min_eq_right h.le).symm
  · next h => exact (min_eq_left (not_lt.mp h)).symm

theorem confine_of_abs_le {z : α} (h : |a| ≤ z) : confine (-z) z a = a := by
  rw [confine_eq, max_eq_left (abs_le.mp h).1, min_eq_left (abs_le.mp h).2]

theorem abs_confine_le {z : α} (hz : 0 ≤ z) (a : α) : |confine (-z) z a| ≤ z := by
  rw [confine_eq, abs_le]
  exact ⟨le_min (le_max_right _ _) (by linarith), min_le_right _ _⟩

variable {extent : Extent α} {cells : ℤ} {g : Grid α}

theorem surface_eq_ok {f : Point α → Except Fault (Option α)} (hz : 0 ≤ extent.z)
    (h : surface f extent cells = .ok g) : g.Proportional 1 ∧ ∀ i j, |(g.vertex i j).height| ≤ extent.z := by
  obtain ⟨xs, -, h⟩ := bind_eq_ok.mp h
  obtain ⟨ys, -, h⟩ := bind_eq_ok.mp h
  obtain ⟨-, -, hsamples⟩ := Grid.ofSamples_eq_ok h
  have hvertex (i j : ℕ) : (g.vertex i j).height = (g.vertex i j).value ∧ |(g.vertex i j).height| ≤ extent.z := by
    refine hsamples.forall_vertex (P := fun v => v.height = v.value ∧ |v.height| ≤ extent.z) ?_ ?_ i j
    · exact fun value _ => ⟨rfl, abs_confine_le hz value⟩
    · exact ⟨rfl, by rwa [Scalar.literal_zero, abs_zero]⟩
  refine ⟨⟨hsamples.toFull, zero_le_one, fun i j => ?_⟩, fun i j => (hvertex i j).2⟩
  rw [one_mul, (hvertex i j).1]

/-- The largest value of a scaled surface reaches the end of the value range. If it is 0, all of them are. -/
theorem scaledSurface_eq_ok {f : Point α → Except Fault (Option α)} (hz : 0 ≤ extent.z)
    (h : scaledSurface f extent cells = .ok g) :
    g.SamplesOf f fun value valid => ⟨value, value * (extent.z / g.peak), valid⟩ := by
  obtain ⟨xs, -, h⟩ := bind_eq_ok.mp h
  obtain ⟨ys, -, h⟩ := bind_eq_ok.mp h
  obtain ⟨plain, hplain, h⟩ := bind_eq_ok.mp h
  obtain ⟨-, -, hsamples⟩ := Grid.ofSamples_eq_ok hplain
  obtain ⟨scale, hscale, h⟩ := branch_eq_ok.mp h
  obtain rfl := pure_eq_ok.mp h
  have hpeak : (plain.mapHeights fun value => confine (-extent.z) extent.z (value * scale)).peak = plain.peak := by
    rw [Grid.peak_eq, Grid.peak_eq, Grid.values_mapHeights]
  rw [hpeak]
  -- Scaled, no value is beyond the end of the range, so that none is moved.
  have hheight (i j : ℕ) : confine (-extent.z) extent.z ((plain.vertex i j).value * scale) =
      (plain.vertex i j).value * (extent.z / plain.peak) := by
    have hle := hsamples.abs_value_le i j
    rw [Scalar.literal_zero] at hscale
    split at hscale
    · next hpos =>
      rw [Scalar.divide_of_ne_zero hpos.ne'] at hscale
      obtain rfl := Except.ok.inj hscale
      refine confine_of_abs_le ?_
      rw [abs_mul, abs_of_nonneg (div_nonneg hz hpos.le), ← mul_div_assoc, div_le_iff₀ hpos, mul_comm extent.z]
      exact mul_le_mul_of_nonneg_right hle hz
    · next hpos =>
      rw [abs_nonpos_iff.mp (hle.trans (not_lt.mp hpos)), zero_mul, zero_mul]
      exact confine_of_abs_le (by rwa [abs_zero])
  refine ⟨hsamples.toFull.mapHeights _, fun i hi j hj => ?_⟩
  obtain ⟨sample, hsample, hvertex⟩ := hsamples.sampled i hi j hj
  refine ⟨sample, hsample, ?_⟩
  rw [Grid.vertex_mapHeights hsamples.toFull _ hi hj, hheight, hvertex]
  cases sample <;> rfl

theorem scaledSurface_proportional {f : Point α → Except Fault (Option α)} (hz : 0 ≤ extent.z)
    (h : scaledSurface f extent cells = .ok g) : g.Proportional (extent.z / g.peak) where
  toFull := (scaledSurface_eq_ok hz h).toFull
  nonneg := div_nonneg hz g.peak_nonneg
  height_eq := by
    refine (scaledSurface_eq_ok hz h).forall_vertex (P := fun v => v.height = extent.z / g.peak * v.value) ?_ ?_
    · exact fun value _ => mul_comm value _
    · rw [Scalar.literal_zero, mul_zero]

/-- No vertex is outside of the domain; one beyond the grid counts as one in the middle of it. -/
theorem abs_entry_le {xs : Array α} {r : α} {n : ℕ} (hxs : xs = ((List.range (n + 1)).map (position r n)).toArray)
    (hr : 0 ≤ r) (i : ℕ) :
    |if h : i < xs.size then xs[i] else @OfScientific.ofScientific α Scalar.toOfScientific 0 true 1| ≤ r := by
  subst hxs
  split
  · next hi =>
    have hi : i < n + 1 := by simpa using hi
    simpa using abs_position_le hr (Nat.le_of_lt_succ hi)
  · rwa [Scalar.literal_zero, abs_zero]

theorem entry_lt {xs : Array α} {positions : List α} (hxs : xs = positions.toArray) (h : positions.Pairwise (· < ·))
    {i k : ℕ} (hik : i < k) (hk : k < xs.size) :
    (if h : i < xs.size then xs[i] else @OfScientific.ofScientific α Scalar.toOfScientific 0 true 1) <
      if h : k < xs.size then xs[k] else @OfScientific.ofScientific α Scalar.toOfScientific 0 true 1 := by
  subst hxs
  rw [dif_pos (hik.trans hk), dif_pos hk]
  exact List.pairwise_iff_getElem.mp h i k (hik.trans hk) hk hik

/-- A grid that a surface is drawn from: the samples of a function, or of a scalar of a planar field. -/
inductive Sampled (extent : Extent α) (cells : ℤ) (g : Grid α) : Prop
  | function (f : Point α → Except Fault (Option α)) (h : surface f extent cells = .ok g)
  | field (f : Point α → Except Fault (Vec (Option α))) (mode : SurfaceMode)
      (h : vectorSurface f mode extent cells = .ok g)

namespace Sampled

theorem proportional (hz : 0 ≤ extent.z) (h : Sampled extent cells g) : ∃ k, g.Proportional k := by
  cases h with
  | function f h => exact ⟨1, (surface_eq_ok hz h).1⟩
  | field f mode h => exact ⟨_, scaledSurface_proportional hz h⟩

theorem abs_height_le (hz : 0 ≤ extent.z) (h : Sampled extent cells g) (i j : ℕ) :
    |(g.vertex i j).height| ≤ extent.z := by
  cases h with
  | function f h => exact (surface_eq_ok hz h).2 i j
  | field f mode h =>
    have hscaled := scaledSurface_proportional hz h
    calc |(g.vertex i j).height| = extent.z / g.peak * |(g.vertex i j).value| := by
          rw [hscaled.height_eq, abs_mul, abs_of_nonneg hscaled.nonneg]
      _ ≤ extent.z / g.peak * g.peak := mul_le_mul_of_nonneg_left (hscaled.abs_value_le i j) hscaled.nonneg
      _ = g.peak / g.peak * extent.z := div_mul_comm _ _ _
      _ ≤ extent.z := mul_le_of_le_one_left hz (div_self_le_one _)

theorem positions (h : Sampled extent cells g) : ∃ xs ys, vertices extent.x cells = .ok xs ∧
    vertices extent.y cells = .ok ys ∧ g.xs = xs.toArray ∧ g.ys = ys.toArray := by
  cases h with
  | function f h =>
    obtain ⟨xs, hxs, h⟩ := bind_eq_ok.mp h
    obtain ⟨ys, hys, h⟩ := bind_eq_ok.mp h
    have hpositions := Grid.ofSamples_eq_ok h
    exact ⟨xs, ys, hxs, hys, hpositions.1, hpositions.2.1⟩
  | field f mode h =>
    obtain ⟨xs, hxs, h⟩ := bind_eq_ok.mp h
    obtain ⟨ys, hys, h⟩ := bind_eq_ok.mp h
    obtain ⟨plain, hplain, h⟩ := bind_eq_ok.mp h
    obtain ⟨scale, -, h⟩ := branch_eq_ok.mp h
    obtain rfl := pure_eq_ok.mp h
    have hpositions := Grid.ofSamples_eq_ok hplain
    exact ⟨xs, ys, hxs, hys, hpositions.1, hpositions.2.1⟩

theorem positions_eq {n : ℕ} (h : Sampled extent n g) :
    g.xs = ((List.range (n + 1)).map (position extent.x n)).toArray ∧
      g.ys = ((List.range (n + 1)).map (position extent.y n)).toArray := by
  obtain ⟨xs, ys, hxs, hys, hx, hy⟩ := h.positions
  rw [vertices_eq] at hxs hys
  obtain rfl := Except.ok.inj hxs
  obtain rfl := Except.ok.inj hys
  exact ⟨hx, hy⟩

theorem cells_eq {n : ℕ} (h : Sampled extent n g) : g.cells = n := by
  rw [Grid.cells, h.positions_eq.1, List.size_toArray, List.length_map, List.length_range]
  omega

theorem abs_x_le {n : ℕ} (h : Sampled extent n g) (hx : 0 ≤ extent.x) (i : ℕ) : |g.x i| ≤ extent.x :=
  abs_entry_le h.positions_eq.1 hx i

theorem abs_y_le {n : ℕ} (h : Sampled extent n g) (hy : 0 ≤ extent.y) (j : ℕ) : |g.y j| ≤ extent.y :=
  abs_entry_le h.positions_eq.2 hy j

theorem x_lt (h : Sampled extent cells g) (hx : 0 < extent.x) {i k : ℕ} (hik : i < k) (hk : k < g.xs.size) :
    g.x i < g.x k := by
  obtain ⟨xs, ys, hxs, -, heq, -⟩ := h.positions
  exact entry_lt heq (vertices_pairwise hx hxs) hik hk

theorem y_lt (h : Sampled extent cells g) (hy : 0 < extent.y) {j l : ℕ} (hjl : j < l) (hl : l < g.ys.size) :
    g.y j < g.y l := by
  obtain ⟨xs, ys, -, hys, -, heq⟩ := h.positions
  exact entry_lt heq (vertices_pairwise hy hys) hjl hl

end Sampled

end FieldPlot.Sampling
