import FieldPlot.Proofs.Sampling.Totality

/-! Where a grid is sampled. In exact numbers the vertices along an axis are evenly spaced from one end of the
domain to the other; a single one is at the lower end. -/

namespace FieldPlot.Sampling

variable {α : Type} [LawfulScalar α] {extent : α} {cells : ℤ} {xs : List α} {n k l : ℕ}

theorem evenlyAt_eq (start stop : α) (hk : k < n) :
    evenlyAt start stop n k = .ok (start + (stop - start) * (k / (n - 1 : ℕ))) := by
  unfold evenlyAt
  simp only [Scalar.ofNat_eq]
  split
  · next hn =>
    obtain rfl : k = 0 := by omega
    simp
  · next hn =>
    have hgaps : ((n - 1 : ℕ) : α) ≠ 0 := Nat.cast_ne_zero.mpr (by omega)
    split
    · next hlast =>
      obtain rfl : k = n - 1 := by omega
      rw [div_self hgaps, mul_one, add_sub_cancel]
    · simp only [Scalar.divide_of_ne_zero hgaps, ok_bind]
      -- A step of zero is avoided by dividing first, which in exact numbers is no different.
      split
      · exact congrArg Except.ok (by ring)
      · exact congrArg Except.ok (by ring)

/-- The vertex number `k` on an axis of `n` cells. -/
def position (extent : α) (n k : ℕ) : α :=
  -extent + (extent - -extent) * (k / n)

theorem vertices_eq (extent : α) (n : ℕ) :
    vertices extent n = .ok ((List.range (n + 1)).map (position extent n)) := by
  have hcount : ¬((n : ℤ) + 1 < 0) := by omega
  have hlength : ((n : ℤ) + 1).toNat = n + 1 := by omega
  rw [vertices, evenly, if_neg hcount, Scalar.ofInt?_eq, Scalar.listLength_eq, ok_bind, ok_bind, hlength]
  exact mapM_eq_map _ fun k hk => evenlyAt_eq _ _ (List.mem_range.mp hk)

theorem abs_position_le (hextent : 0 ≤ extent) (hk : k ≤ n) : |position extent n k| ≤ extent := by
  have hnonneg : (0 : α) ≤ k / n := by positivity
  have hle : (k : α) / n ≤ 1 := div_le_one_of_le₀ (Nat.cast_le.mpr hk) (Nat.cast_nonneg n)
  rw [position, abs_le]
  constructor <;> nlinarith

theorem position_lt (hextent : 0 < extent) (hkl : k < l) (hl : l ≤ n) :
    position extent n k < position extent n l := by
  have hn : (0 : α) < n := Nat.cast_pos.mpr (by omega)
  have hfraction : (k : α) / n < l / n := div_lt_div_of_pos_right (Nat.cast_lt.mpr hkl) hn
  rw [position, position]
  nlinarith

/-- Fewer than no cells fail, and -1 cells have no vertices. -/
theorem vertices_cases (h : vertices extent cells = .ok xs) : (∃ n : ℕ, cells = n) ∨ xs = [] := by
  by_cases hcells : 0 ≤ cells
  · exact .inl ⟨cells.toNat, (Int.toNat_of_nonneg hcells).symm⟩
  · unfold vertices evenly at h
    split at h
    · cases h
    · next hcount =>
      have hlength : (cells + 1).toNat = 0 := by omega
      have hnone : ¬(decide (0 = 0) && decide (0 < cells + 1)) = true := by
        simp only [Bool.and_eq_true, decide_eq_true_iff]
        omega
      rw [Scalar.ofInt?_eq, Scalar.listLength_eq, ok_bind, ok_bind, hlength, if_neg hnone] at h
      exact .inr (Except.ok.inj h).symm

theorem vertices_pairwise (hextent : 0 < extent) (h : vertices extent cells = .ok xs) : xs.Pairwise (· < ·) := by
  obtain ⟨n, rfl⟩ | rfl := vertices_cases h
  · rw [vertices_eq] at h
    obtain rfl := Except.ok.inj h
    refine List.pairwise_map.mpr (List.pairwise_lt_range.imp_of_mem fun _ hl hkl => ?_)
    exact position_lt hextent hkl (Nat.le_of_lt_succ (List.mem_range.mp hl))
  · exact .nil

theorem abs_le_of_mem_vertices {a : α} (hextent : 0 ≤ extent) (h : vertices extent cells = .ok xs) (ha : a ∈ xs) :
    |a| ≤ extent := by
  obtain ⟨n, rfl⟩ | rfl := vertices_cases h
  · rw [vertices_eq] at h
    obtain rfl := Except.ok.inj h
    obtain ⟨k, hk, rfl⟩ := List.mem_map.mp ha
    exact abs_position_le hextent (Nat.le_of_lt_succ (List.mem_range.mp hk))
  · cases ha

end FieldPlot.Sampling
