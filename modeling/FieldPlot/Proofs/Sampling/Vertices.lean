import FieldPlot.Proofs.Outcome
import FieldPlot.Sampling.Grid

/-! The vertices of a sampled grid. There is one wherever two of the positions cross, made of the sample
there; beyond the grid a vertex counts as one on the floor that is not valid. -/

namespace FieldPlot.Sampling.Grid

variable {α : Type} {g : Grid α}

/-- A grid with a vertex wherever two of its positions cross. -/
structure Full (g : Grid α) : Prop where
  rows : g.rows.size = g.xs.size
  columns : ∀ row ∈ g.rows, row.size = g.ys.size

theorem Full.mapHeights (h : g.Full) (height : α → α) : (g.mapHeights height).Full where
  rows := by simpa [Grid.mapHeights] using h.rows
  columns row hrow := by
    obtain ⟨old, hold, rfl⟩ := Array.mem_map.mp hrow
    exact Array.size_map.trans (h.columns old hold)

def values (g : Grid α) : List α :=
  g.vertexList.map (·.value)

theorem values_mapHeights (g : Grid α) (height : α → α) : (g.mapHeights height).values = g.values := by
  simp [values, vertexList, Grid.mapHeights, List.map_flatMap, List.flatMap_map, Function.comp_def]

variable [Scalar α] {i j : ℕ}

theorem Full.vertex_eq (h : g.Full) (hi : i < g.xs.size) (hj : j < g.ys.size) :
    ∃ (hi : i < g.rows.size) (hj : j < g.rows[i].size), g.vertex i j = g.rows[i][j] := by
  have hi : i < g.rows.size := h.rows ▸ hi
  have hj : j < g.rows[i].size := h.columns _ (Array.getElem_mem hi) ▸ hj
  exact ⟨hi, hj, by rw [vertex, dif_pos hi, dif_pos hj]⟩

theorem Full.mem_vertexList (h : g.Full) {v : Vertex α} :
    v ∈ g.vertexList ↔ ∃ i < g.xs.size, ∃ j < g.ys.size, g.vertex i j = v := by
  rw [vertexList, List.mem_flatMap]
  constructor
  · rintro ⟨row, hrow, hv⟩
    obtain ⟨i, hi, rfl⟩ := List.mem_iff_getElem.mp hrow
    obtain ⟨j, hj, rfl⟩ := List.mem_iff_getElem.mp hv
    simp only [Array.length_toList, Array.getElem_toList] at hi hj ⊢
    have hcolumns := h.columns _ (Array.getElem_mem hi)
    refine ⟨i, h.rows ▸ hi, j, hcolumns ▸ hj, ?_⟩
    rw [vertex, dif_pos hi, dif_pos hj]
  · rintro ⟨i, hi, j, hj, rfl⟩
    obtain ⟨hi, hj, hv⟩ := h.vertex_eq hi hj
    exact ⟨g.rows[i], Array.getElem_mem_toList hi, hv ▸ Array.getElem_mem_toList hj⟩

theorem Full.vertex_outside (h : g.Full) (hout : ¬(i < g.xs.size ∧ j < g.ys.size)) :
    g.vertex i j = ⟨0.0, 0.0, false⟩ := by
  unfold vertex
  split
  · next hi =>
    split
    · next hj =>
      have hcolumns := h.columns _ (Array.getElem_mem hi)
      exact absurd ⟨h.rows ▸ hi, hcolumns ▸ hj⟩ hout
    · rfl
  · rfl

theorem vertex_mapHeights (h : g.Full) (height : α → α) (hi : i < g.xs.size) (hj : j < g.ys.size) :
    (g.mapHeights height).vertex i j = { g.vertex i j with height := height (g.vertex i j).value } := by
  obtain ⟨hi, hj, hv⟩ := h.vertex_eq hi hj
  rw [hv]
  simp [Grid.mapHeights, vertex, hi, hj]

/-- A grid of the samples of `f`, each turned into a vertex. -/
structure SamplesOf (f : Point α → Except Fault (Option α)) (vertex : α → Bool → Vertex α) (g : Grid α) : Prop
    extends g.Full where
  sampled : ∀ i < g.xs.size, ∀ j < g.ys.size, ∃ sample, f ⟨g.x i, g.y j, 0.0⟩ = .ok sample ∧
    g.vertex i j = sample.elim (vertex 0.0 false) (vertex · true)

theorem ofSamples_eq_ok {xs ys : List α} {f : Point α → Except Fault (Option α)} {vertex : α → Bool → Vertex α}
    (h : ofSamples xs ys f vertex = .ok g) : g.xs = xs.toArray ∧ g.ys = ys.toArray ∧ g.SamplesOf f vertex := by
  obtain ⟨rows, hrows, h⟩ := bind_eq_ok.mp h
  obtain rfl := pure_eq_ok.mp h
  obtain ⟨hlength, hrows⟩ := List.forall₂_iff_get.mp (mapM_eq_ok.mp hrows)
  have hcolumns (i : ℕ) (hi : i < xs.length) (hi' : i < rows.length) : ∃ row : List (Vertex α),
      rows[i] = row.toArray ∧ row.length = ys.length ∧ ∀ j (hj : j < ys.length) (hj' : j < row.length),
        ∃ sample, f ⟨xs[i], ys[j], 0.0⟩ = .ok sample ∧ row[j] = sample.elim (vertex 0.0 false) (vertex · true) := by
    obtain ⟨row, hrow, heq⟩ := bind_eq_ok.mp (hrows i hi hi')
    obtain ⟨hwidth, hrow⟩ := List.forall₂_iff_get.mp (mapM_eq_ok.mp hrow)
    refine ⟨row, (pure_eq_ok.mp heq).symm, hwidth.symm, fun j hj hj' => ?_⟩
    obtain ⟨sample, hsample, hvertex⟩ := bind_eq_ok.mp (hrow j hj hj')
    refine ⟨sample, hsample, ?_⟩
    cases sample with
    | none => exact (pure_eq_ok.mp hvertex).symm
    | some value => exact (pure_eq_ok.mp hvertex).symm
  refine ⟨rfl, rfl, ⟨by simp [hlength], fun row hrow => ?_⟩, fun i hi j hj => ?_⟩
  · obtain ⟨i, hi, rfl⟩ := List.mem_iff_getElem.mp (Array.mem_toList_iff.mpr hrow)
    obtain ⟨row, heq, hwidth, -⟩ := hcolumns i (hlength ▸ hi) hi
    simp only [heq, List.size_toArray, hwidth]
  · simp only [List.size_toArray] at hi hj
    obtain ⟨row, heq, hwidth, hsampled⟩ := hcolumns i hi (hlength ▸ hi)
    obtain ⟨sample, hsample, hvertex⟩ := hsampled j hj (hwidth ▸ hj)
    refine ⟨sample, ?_, ?_⟩
    · simpa [x, y, hi, hj] using hsample
    · simpa [Grid.vertex, ← hlength, hi, heq, hwidth, hj] using hvertex

theorem SamplesOf.forall_vertex {f : Point α → Except Fault (Option α)} {vertex : α → Bool → Vertex α}
    {P : Vertex α → Prop} (h : g.SamplesOf f vertex) (hvertex : ∀ value valid, P (vertex value valid))
    (hout : P ⟨0.0, 0.0, false⟩) (i j : ℕ) : P (g.vertex i j) := by
  by_cases hij : i < g.xs.size ∧ j < g.ys.size
  · obtain ⟨sample, -, hsample⟩ := h.sampled i hij.1 j hij.2
    rw [hsample]
    cases sample with
    | none => exact hvertex 0.0 false
    | some value => exact hvertex value true
  · rw [h.vertex_outside hij]
    exact hout

end FieldPlot.Sampling.Grid
