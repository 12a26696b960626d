import FieldPlot.Proofs.Sampling.IsoLines
import FieldPlot.Proofs.Scalar.Counting
import FieldPlot.Sampling.Curve
import FieldPlot.Sampling.Lattice

/-! Sampling comes through. In exact numbers every count of samples gives positions, every function that
returns gives samples of it, and the spacings of grid lines are positive. Of doubles this holds for counts
that a machine has room for. -/

namespace FieldPlot.Sampling

open Vectors (SurfaceMode Vec)

variable {α : Type}

section

variable {β : Type} {f : Point α → Except Fault (Option β)} {sites : List (Point α)}

theorem collect_returns (hf : ∀ p, Returns (f p)) : Returns (collect f sites) :=
  .bind (.mapM fun _ _ => hf _) fun _ _ => .ok _

theorem exists_of_mem_collect {found : List β} (h : collect f sites = .ok found) {b : β} (hb : b ∈ found) :
    ∃ p ∈ sites, f p = .ok (some b) := by
  obtain ⟨samples, hsamples, h⟩ := bind_eq_ok.mp h
  obtain rfl := pure_eq_ok.mp h
  have hmem : some b ∈ samples := by simpa using hb
  obtain ⟨p, hp, hsample⟩ := exists_of_mem_right (mapM_eq_ok.mp hsamples) hmem
  exact ⟨p, hp, hsample⟩

end

section

variable [Scalar α] [CountingScalar α]

/-! ### Positions -/

theorem evenlyAt_unfailing (start stop : α) {n k : ℕ} (hk : k < n) : Returns (evenlyAt start stop n k) := by
  unfold evenlyAt
  dsimp only
  split
  · exact .ok _
  · split
    · exact .ok _
    · have hgaps : ∀ a : α, Returns (Scalar.divide a (Scalar.ofNat (n - 1))) := fun a =>
        ⟨_, Scalar.divide_ofInt a (by omega)⟩
      refine (hgaps _).bind fun _ _ => ?_
      split
      · exact (hgaps _).bind fun _ _ => .ok _
      · exact .ok _

/-- Positions as many as are asked for, where there is a list that long. -/
theorem evenly_of_listLength (start stop : α) {count : ℤ} (hcount : 0 ≤ count)
    (hnumber : Returns (Scalar.ofInt? count : Except Fault α))
    (hlength : Scalar.listLength α count = .ok count.toNat) : Returns (evenly start stop count) := by
  have hsome : ¬(decide (count.toNat = 0) && decide (0 < count)) = true := by
    simp
  obtain ⟨_, hnumber⟩ := hnumber
  rw [evenly, if_neg hcount.not_gt, hnumber, hlength, ok_bind, ok_bind, if_neg hsome]
  exact .mapM fun k hk => evenlyAt_unfailing _ _ (List.mem_range.mp hk)

theorem vertices_unfailing (extent : α) {cells : ℤ} (hcells : 0 ≤ cells)
    (hlt : 8 * (cells + 1) < Scalar.memoryBound) : Returns (vertices extent cells) :=
  evenly_of_listLength _ _ (by omega) ⟨_, Scalar.ofInt?_of_lt (by omega) hlt⟩
    (Scalar.listLength_of_lt (by omega) hlt)

theorem autoRange_unfailing {f : Point α → Except Fault (Option α)} (hf : ∀ p, Returns (f p))
    (extentX extentY : α) {cells : ℤ} (hcells : 0 ≤ cells) (hlt : 8 * (cells + 1) < Scalar.memoryBound) :
    Returns (autoRange f extentX extentY cells) :=
  (vertices_unfailing _ hcells hlt).bind fun _ _ => (vertices_unfailing _ hcells hlt).bind fun _ _ =>
    (collect_returns hf).bind fun _ _ => .ok _

end

variable [LawfulScalar α]

theorem steps_returns (start stop step : α) : Returns (steps start stop step) := by
  unfold steps
  split
  · next h =>
    simp only [Bool.and_eq_true, decide_eq_true_iff, Scalar.literal_zero] at h
    exact (Scalar.divide_returns _ h.1.1.ne').bind fun _ _ => (Scalar.whole_returns _ _).bind fun _ _ => .ok _
  · exact .ok []

theorem evenly_returns (start stop : α) {count : ℤ} (hcount : 0 ≤ count) :
    Returns (evenly start stop count) :=
  evenly_of_listLength _ _ hcount ⟨_, Scalar.ofInt?_eq count⟩ (Scalar.listLength_eq count)

theorem vertices_returns (extent : α) {cells : ℤ} (hcells : 0 ≤ cells) : Returns (vertices extent cells) :=
  evenly_returns _ _ (by omega)

theorem gridSpacing_pos (span : α) {lines : ℤ} (hlines : 0 < lines) :
    ∃ spacing, gridSpacing span lines = .ok spacing ∧ 0 < spacing := by
  unfold gridSpacing
  split
  · next h =>
    -- Whatever the leading figure, the spacing is a positive multiple of a power of ten.
    simp only [Bool.and_eq_true, decide_eq_true_iff, Scalar.literal_zero] at h
    have hlines : (0 : α) < lines := Int.cast_pos.mpr hlines
    obtain ⟨unit, hunit, hpos⟩ := Scalar.decade_returns (div_pos h.1 hlines)
    simp only [Scalar.ofInt?_eq, ok_bind, Scalar.divide_of_ne_zero hlines.ne', hunit,
      Scalar.divide_of_ne_zero hpos.ne']
    refine ⟨_, rfl, mul_pos ?_ hpos⟩
    split_ifs <;> exact Scalar.literal_pos 1 (by decide)
  · exact ⟨_, rfl, Scalar.literal_pos 1 (by decide)⟩

theorem floorSpacing_returns (extent : α) : Returns (floorSpacing extent) := by
  unfold floorSpacing
  dsimp only
  split
  · next h =>
    simp only [Bool.and_eq_true, decide_eq_true_iff, Scalar.literal_zero] at h
    obtain ⟨unit, hunit, hpos⟩ := Scalar.decade_returns h.1
    rw [hunit]
    exact (Scalar.divide_returns _ hpos.ne').bind fun _ _ => .ok _
  · exact .ok _

theorem contourLevels_returns (lo hi : α) (count : ℤ) : Returns (contourLevels lo hi count) := by
  unfold contourLevels
  split
  · next h =>
    simp only [Bool.and_eq_true, decide_eq_true_iff] at h
    have hparts : ((count + 1 : ℤ) : α) ≠ 0 := Int.cast_ne_zero.mpr (by omega)
    rw [Scalar.ofInt?_eq]
    exact .mapM fun _ _ => (Scalar.divide_returns _ hparts).bind fun _ _ => .ok _
  · exact .ok []

theorem centres_returns (lo hi : α) (cells : ℤ) : Returns (centres lo hi cells) := by
  rw [centres, Scalar.listLength_eq]
  refine .mapM fun k hk => ?_
  -- Without cells there is no centre to divide for.
  have hcells : (Scalar.ofInt cells : α) ≠ 0 := by
    have := List.mem_range.mp hk
    rw [LawfulScalar.ofInt_eq, Int.cast_ne_zero]
    omega
  exact (Scalar.divide_returns _ hcells).bind fun _ _ => .ok _

/-! ### Grids, heatmaps and curves -/

section

variable {f : Point α → Except Fault (Option α)}

theorem ofSamples_returns (hf : ∀ p, Returns (f p)) (xs ys : List α) (vertex : α → Bool → Vertex α) :
    Returns (Grid.ofSamples xs ys f vertex) := by
  refine .bind (.mapM fun x _ => .bind (.mapM fun y _ => (hf _).bind fun sample _ => ?_) fun _ _ => .ok _)
    fun _ _ => .ok _
  cases sample with
  | none => exact .ok _
  | some value => exact .ok _

theorem surface_returns (hf : ∀ p, Returns (f p)) (extent : Extent α) {cells : ℤ} (hcells : 0 ≤ cells) :
    Returns (surface f extent cells) :=
  (vertices_returns _ hcells).bind fun _ _ => (vertices_returns _ hcells).bind fun _ _ =>
    ofSamples_returns hf _ _ _

theorem scaledSurface_returns (hf : ∀ p, Returns (f p)) (extent : Extent α) {cells : ℤ} (hcells : 0 ≤ cells) :
    Returns (scaledSurface f extent cells) := by
  refine (vertices_returns _ hcells).bind fun _ _ => (vertices_returns _ hcells).bind fun _ _ => ?_
  refine (ofSamples_returns hf _ _ _).bind fun _ _ => .branch (fun hpeak => ?_) (fun _ => .ok _) fun _ => .ok _
  rw [Scalar.literal_zero] at hpeak
  exact Scalar.divide_returns _ hpeak.ne'

theorem windowGrid_returns (hf : ∀ p, Returns (f p)) (w : Window α) {cells : ℤ} (hcells : 0 ≤ cells) :
    Returns (windowGrid f w cells) :=
  (evenly_returns _ _ (by omega)).bind fun _ _ => (evenly_returns _ _ (by omega)).bind fun _ _ =>
    ofSamples_returns hf _ _ _

theorem heatmap_returns (hf : ∀ p, Returns (f p)) (w : Window α) (cells : ℤ) :
    Returns (heatmap f w cells) :=
  (centres_returns _ _ _).bind fun _ _ => (centres_returns _ _ _).bind fun _ _ =>
    .mapM fun _ _ => .mapM fun _ _ => hf _

theorem curve_returns (hf : ∀ p, Returns (f p)) (lo hi valueRange : α) {steps : ℤ} (hsteps : steps ≠ 0)
    (limit : Option α) : Returns (curve f lo hi valueRange steps limit) := by
  unfold curve
  split
  · exact .ok []
  · rw [Scalar.ofInt?_eq, ok_bind]
    refine .bind (.mapM fun _ _ => ?_) fun _ _ => .ok _
    exact (Scalar.divide_returns _ (Int.cast_ne_zero.mpr hsteps)).bind fun _ _ => (hf _).bind fun _ _ => .ok _

end

/-! ### Lattices and arrows -/

theorem spaceSites_returns (extent : Extent α) {cells : ℤ} (hcells : 0 ≤ cells) :
    Returns (spaceSites extent cells) :=
  (vertices_returns _ hcells).bind fun _ _ => (vertices_returns _ hcells).bind fun _ _ =>
    (vertices_returns _ hcells).bind fun _ _ => .ok _

theorem floorSites_returns (extent : Extent α) {cells : ℤ} (hcells : 0 ≤ cells) :
    Returns (floorSites extent cells) :=
  (vertices_returns _ (by omega)).bind fun _ _ => (vertices_returns _ (by omega)).bind fun _ _ => .ok _

theorem fieldSites_returns (spatial : Bool) (extent : Extent α) {cells : ℤ} (hcells : 0 ≤ cells) :
    Returns (fieldSites spatial extent cells) := by
  unfold fieldSites
  split
  · exact spaceSites_returns extent hcells
  · exact floorSites_returns extent hcells

theorem scalarField_returns {f : Point α → Except Fault (Option α)} (hf : ∀ p, Returns (f p))
    (extent : Extent α) {cells : ℤ} (hcells : 0 ≤ cells) : Returns (scalarField f extent cells) :=
  (spaceSites_returns extent hcells).bind fun _ _ => collect_returns fun _ => (hf _).bind fun _ _ => .ok _

theorem autoRange_pos {f : Point α → Except Fault (Option α)} {extentX extentY range : α} {cells : ℤ}
    (h : autoRange f extentX extentY cells = .ok (some range)) : 0 < range := by
  obtain ⟨xs, -, h⟩ := bind_eq_ok.mp h
  obtain ⟨ys, -, h⟩ := bind_eq_ok.mp h
  obtain ⟨values, -, h⟩ := bind_eq_ok.mp h
  have h := pure_eq_ok.mp h
  split at h
  · cases h
  · next hpeak =>
    obtain rfl := Option.some.inj h
    have hpos := Scalar.literal_zero.ge.trans_lt (not_le.mp hpeak)
    exact mul_pos hpos (Scalar.literal_pos 1 (by decide))

section

variable {f : Point α → Except Fault (Vec (Option α))}

theorem vectorSurface_returns (hf : ∀ p, Returns (f p)) (mode : SurfaceMode) (extent : Extent α) {cells : ℤ}
    (hcells : 0 ≤ cells) : Returns (vectorSurface f mode extent cells) :=
  scaledSurface_returns (fun _ => (hf _).bind fun _ _ => .ok _) extent hcells

theorem fieldMagnitudes_returns (hf : ∀ p, Returns (f p)) (spatial : Bool) (extent : Extent α) {cells : ℤ}
    (hcells : 0 ≤ cells) : Returns (fieldMagnitudes f spatial extent cells) :=
  (fieldSites_returns spatial extent hcells).bind fun _ _ =>
    collect_returns fun _ => (hf _).bind fun _ _ => .ok _

theorem threshold_pos : 0 < (Vec.threshold : α) :=
  Scalar.literal_pos 10 (by decide)

theorem arrowAt_returns (mode : SurfaceMode) (p : Point α) (v : Vec (Option α)) :
    Returns (arrowAt? mode p v) := by
  unfold arrowAt?
  split
  · next w magnitude surfaceValue _ =>
    split
    · exact .ok none
    · next hle =>
      have hpos : 0 < magnitude := threshold_pos.trans_le (not_lt.mp hle)
      exact (Scalar.divide_returns _ hpos.ne').bind fun _ _ => .ok _
  · exact .ok none

theorem magnitude_pos_of_arrowAt {mode : SurfaceMode} {p : Point α} {v : Vec (Option α)} {a : Arrow α}
    (h : arrowAt? mode p v = .ok (some a)) : 0 < a.magnitude := by
  unfold arrowAt? at h
  split at h
  · split at h
    · cases h
    · next hle =>
      obtain ⟨_, -, h⟩ := bind_eq_ok.mp h
      cases pure_eq_ok.mp h
      exact threshold_pos.trans_le (not_lt.mp hle)
  · cases h

theorem arrows_returns (hf : ∀ p, Returns (f p)) (spatial : Bool) (mode : SurfaceMode) (extent : Extent α)
    {cells : ℤ} (hcells : 0 ≤ cells) : Returns (arrows f spatial mode extent cells) :=
  (fieldSites_returns spatial extent hcells).bind fun _ _ =>
    collect_returns fun _ => (hf _).bind fun _ _ => arrowAt_returns _ _ _

theorem magnitude_pos_of_arrows {spatial : Bool} {mode : SurfaceMode} {extent : Extent α} {cells : ℤ}
    {found : List (Arrow α)} (h : arrows f spatial mode extent cells = .ok found) :
    ∀ a ∈ found, 0 < a.magnitude := by
  intro a ha
  obtain ⟨sites, -, h⟩ := bind_eq_ok.mp h
  obtain ⟨p, -, hp⟩ := exists_of_mem_collect h ha
  obtain ⟨v, -, hp⟩ := bind_eq_ok.mp hp
  exact magnitude_pos_of_arrowAt hp

end

end FieldPlot.Sampling
