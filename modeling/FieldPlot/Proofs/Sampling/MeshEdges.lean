import FieldPlot.Proofs.Sampling.IsoLines

/-! The mesh along its edges. The heights of a mesh are interpolated along an edge as the positions are, so that
the point of an edge has one height, whichever of the edges through it is asked. -/

namespace FieldPlot.Sampling

variable {α : Type}

namespace Grid

variable {g : Grid α} {e : Edge}

/-- An edge between two vertices of the grid. -/
structure HasEdge (g : Grid α) (e : Edge) : Prop where
  column : e.last.1 < g.xs.size
  row : e.last.2 < g.ys.size

theorem hasEdge_of_mem_around {i j : ℕ} (hplace : (i, j) ∈ g.places) (he : e ∈ Edge.around i j) : g.HasEdge e := by
  obtain ⟨hi, hj⟩ := List.pair_mem_product.mp hplace
  rw [List.mem_range] at hi hj
  cases e with
  | alongX k l =>
    rw [Edge.mem_around_alongX] at he
    constructor <;> simp only [Edge.last] <;> omega
  | alongY k l =>
    rw [Edge.mem_around_alongY] at he
    constructor <;> simp only [Edge.last] <;> omega

end Grid

variable [ExactScalar α]

/-- The value at `t` of a step, from 0 at its start to 1 at its end. -/
def along (a b t : α) : α :=
  a + t * (b - a)

theorem ends_map {β γ : Type} (f : β → γ) (s : List (β × β)) : ends (s.map (Prod.map f f)) = (ends s).map f := by
  simp [ends, List.flatMap_map, List.map_flatMap]

section

variable {x : ℕ → α} {size i k : ℕ} {s t : α}

theorem along_bounds {a b : α} (hab : a < b) (ht : t ∈ Set.Icc 0 1) : a ≤ along a b t ∧ along a b t ≤ b := by
  have hstep : 0 ≤ b - a := (sub_pos.mpr hab).le
  have hlower : 0 ≤ t * (b - a) := mul_nonneg ht.1 hstep
  have hupper : t * (b - a) ≤ b - a := mul_le_of_le_one_left hstep ht.2
  unfold along
  constructor <;> linarith

theorem along_injective {a b : α} (hab : a < b) (h : along a b s = along a b t) : s = t :=
  mul_right_cancel₀ (sub_pos.mpr hab).ne' (add_left_cancel h)

theorem along_zero (a b : α) : along a b 0 = a := by
  rw [along, zero_mul, add_zero]

theorem along_one (a b : α) : along a b 1 = b := by
  rw [along, one_mul, add_sub_cancel]

theorem step_pos (hx : StrictMonoOn x (Set.Iio size)) (hi : i + 1 < size) : x i < x (i + 1) :=
  hx (Nat.lt_of_succ_lt hi) hi (Nat.lt_succ_self i)

/-- A step that comes to a position is at one of its own ends there. -/
theorem along_eq_position (height : ℕ → α) (hx : StrictMonoOn x (Set.Iio size)) (hi : i + 1 < size) (hk : k < size)
    (ht : t ∈ Set.Icc 0 1) (h : along (x i) (x (i + 1)) t = x k) :
    along (height i) (height (i + 1)) t = height k := by
  have hbounds := along_bounds (step_pos hx hi) ht
  rw [h] at hbounds
  have hlower : i ≤ k := (hx.le_iff_le (Nat.lt_of_succ_lt hi) hk).mp hbounds.1
  have hupper : k ≤ i + 1 := (hx.le_iff_le hk hi).mp hbounds.2
  rcases Nat.eq_or_lt_of_le hlower with rfl | hlt
  · obtain rfl : t = 0 := along_injective (step_pos hx hi) (h.trans (along_zero _ _).symm)
    exact along_zero _ _
  · obtain rfl : k = i + 1 := Nat.le_antisymm hupper hlt
    obtain rfl : t = 1 := along_injective (step_pos hx hi) (h.trans (along_one _ _).symm)
    exact along_one _ _

/-- An earlier step comes to a place of a later one only where the later one starts. -/
theorem along_eq_start (hx : StrictMonoOn x (Set.Iio size)) (hik : i < k) (hk : k + 1 < size)
    (hs : s ∈ Set.Icc 0 1) (ht : t ∈ Set.Icc 0 1) (h : along (x i) (x (i + 1)) s = along (x k) (x (k + 1)) t) :
    along (x i) (x (i + 1)) s = x k := by
  have hi : i + 1 < size := Nat.lt_of_le_of_lt hik (Nat.lt_of_succ_lt hk)
  have hupper := (along_bounds (step_pos hx hi) hs).2
  have hlower := (along_bounds (step_pos hx hk) ht).1
  have hle : x (i + 1) ≤ x k := (hx.le_iff_le hi (Nat.lt_of_succ_lt hk)).mpr hik
  exact le_antisymm (hupper.trans hle) (h ▸ hlower)

/-- Two steps that come to the same place have the same height there. -/
theorem along_eq_along (height : ℕ → α) (hx : StrictMonoOn x (Set.Iio size)) (hi : i + 1 < size) (hk : k + 1 < size)
    (hs : s ∈ Set.Icc 0 1) (ht : t ∈ Set.Icc 0 1) (h : along (x i) (x (i + 1)) s = along (x k) (x (k + 1)) t) :
    along (height i) (height (i + 1)) s = along (height k) (height (k + 1)) t := by
  rcases lt_trichotomy i k with hlt | rfl | hlt
  · have hstart := along_eq_start hx hlt hk hs ht h
    have hk' : k < size := Nat.lt_of_succ_lt hk
    rw [along_eq_position height hx hi hk' hs hstart, along_eq_position height hx hk hk' ht (h ▸ hstart)]
  · rw [along_injective (step_pos hx hi) h]
  · have hstart := along_eq_start hx hlt hi ht hs h.symm
    have hi' : i < size := Nat.lt_of_succ_lt hi
    rw [along_eq_position height hx hi hi' hs (h ▸ hstart), along_eq_position height hx hk hi' ht hstart]

end

namespace Grid

variable {g : Grid α} {e f : Edge} {s t : α}

/-- The height of the mesh at `t` of the edge. -/
def heightAt (g : Grid α) (t : α) (e : Edge) : α :=
  along (g.vertex e.first.1 e.first.2).height (g.vertex e.last.1 e.last.2).height t

theorem crossed_of_mem_ends_traces {level : α} (he : e ∈ ends (g.traces level)) :
    g.HasEdge e ∧ g.crossed level e = true := by
  rw [ends, traces, List.flatMap_assoc] at he
  obtain ⟨⟨i, j⟩, hplace, he⟩ := List.mem_flatMap.mp he
  change e ∈ ends (g.trace level (i, j)) at he
  refine ⟨hasEdge_of_mem_around hplace (mem_around_of_mem_ends_trace he), ?_⟩
  by_cases hcell : (g.cell? i j).isSome = true
  · rw [ends_trace hcell] at he
    exact (List.mem_filter.mp he).2
  · rw [trace, if_neg hcell] at he
    cases he

/-- Positions that increase along both axes. -/
structure Spread (g : Grid α) : Prop where
  x : StrictMonoOn g.x (Set.Iio g.xs.size)
  y : StrictMonoOn g.y (Set.Iio g.ys.size)

theorem heightAt_eq_of_spot_eq (h : g.Spread) (he : g.HasEdge e) (hf : g.HasEdge f) (hs : s ∈ Set.Icc 0 1)
    (ht : t ∈ Set.Icc 0 1) (hspot : g.spot s e = g.spot t f) : g.heightAt s e = g.heightAt t f := by
  obtain ⟨hcolumn, hrow⟩ := he
  obtain ⟨hcolumn', hrow'⟩ := hf
  cases e with
  | alongX i j =>
    cases f with
    | alongX k l =>
      obtain ⟨hx, hy⟩ := Prod.mk.inj hspot
      obtain rfl : j = l := h.y.injOn hrow hrow' hy
      exact along_eq_along (fun i => (g.vertex i j).height) h.x hcolumn hcolumn' hs ht hx
    | alongY k l =>
      obtain ⟨hx, hy⟩ := Prod.mk.inj hspot
      have hleft : g.heightAt s (.alongX i j) = (g.vertex k j).height :=
        along_eq_position (fun i => (g.vertex i j).height) h.x hcolumn hcolumn' hs hx
      have hright : g.heightAt t (.alongY k l) = (g.vertex k j).height :=
        along_eq_position (fun j => (g.vertex k j).height) h.y hrow' hrow ht hy.symm
      rw [hleft, hright]
  | alongY i j =>
    cases f with
    | alongX k l =>
      obtain ⟨hx, hy⟩ := Prod.mk.inj hspot
      have hleft : g.heightAt s (.alongY i j) = (g.vertex i l).height :=
        along_eq_position (fun j => (g.vertex i j).height) h.y hrow hrow' hs hy
      have hright : g.heightAt t (.alongX k l) = (g.vertex i l).height :=
        along_eq_position (fun i => (g.vertex i l).height) h.x hcolumn' hcolumn ht hx.symm
      rw [hleft, hright]
    | alongY k l =>
      obtain ⟨hx, hy⟩ := Prod.mk.inj hspot
      obtain rfl : i = k := h.x.injOn hcolumn hcolumn' hx
      exact along_eq_along (fun j => (g.vertex i j).height) h.y hrow hrow' hs ht hy

/-- The mesh has the height `z` above the point `q` on an edge. Where the positions are spread, no other edge
through that point has another height. -/
structure OnMesh (g : Grid α) (q : Spot α) (z : α) : Prop where
  on_edge : ∃ e, g.HasEdge e ∧ ∃ t ∈ Set.Icc 0 1, g.spot t e = q ∧ g.heightAt t e = z
  every_edge : g.Spread → ∀ e, g.HasEdge e → ∀ t ∈ Set.Icc 0 1, g.spot t e = q → g.heightAt t e = z

theorem onMesh_spot (he : g.HasEdge e) (ht : t ∈ Set.Icc 0 1) : g.OnMesh (g.spot t e) (g.heightAt t e) where
  on_edge := ⟨e, he, t, ht, rfl, rfl⟩
  every_edge h _ hf _ hs hspot := heightAt_eq_of_spot_eq h hf he hs ht hspot

/-- Where the heights are proportional to the values, an iso-line is on the mesh at the height of its level. -/
theorem onMesh_of_mem_contour {k level : α} (hheight : ∀ i j, (g.vertex i j).height = k * (g.vertex i j).value) :
    ∃ segments, g.contour level = .ok segments ∧ ∀ q ∈ ends segments, g.OnMesh q (level * k) := by
  refine ⟨_, contour_eq g level, fun q hq => ?_⟩
  have hends : ends ((g.traces level).map (g.drawn level)) = (ends (g.traces level)).map (g.passage level) :=
    ends_map _ _
  rw [hends] at hq
  obtain ⟨e, he, rfl⟩ := List.mem_map.mp hq
  obtain ⟨hedge, hcrossed⟩ := crossed_of_mem_ends_traces he
  obtain ⟨t, hlower, hupper, hpassage, hlevel⟩ := exists_unique_passage hcrossed
  have hz : g.heightAt t e = level * k := by
    rw [← (hlevel t).mpr rfl, heightAt, along, hheight, hheight, firstValue, lastValue]
    ring
  rw [hpassage, ← hz]
  exact onMesh_spot hedge ⟨hlower, hupper⟩

end Grid

end FieldPlot.Sampling
