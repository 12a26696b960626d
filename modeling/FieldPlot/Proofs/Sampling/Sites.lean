import FieldPlot.Proofs.Sampling.Positions
import FieldPlot.Proofs.Scene.SurfaceCells

/-! The sites of a lattice, as a set with an order. A list of samples is known once it is known which of the sites
it has an entry for, since sites are passed in the order of their coordinates and none of them twice. -/

namespace FieldPlot.Sampling

/-! ### Samples at sites -/

section

variable {α β : Type} {f : Point α → Except Fault (Option β)} {sites : List (Point α)} {found : List β}

theorem collect_returns_iff : Returns (collect f sites) ↔ ∀ p ∈ sites, Returns (f p) := by
  constructor
  · rintro ⟨found, h⟩ p hp
    obtain ⟨samples, hsamples, -⟩ := bind_eq_ok.mp h
    obtain ⟨sample, -, hsample⟩ := exists_of_mem_right (mapM_eq_ok.mp hsamples).flip hp
    exact ⟨sample, hsample⟩
  · exact fun h => (Returns.mapM h).bind fun _ _ => .ok _

/-- Samples come in the order of their sites, and there is one of each site that yields something. -/
theorem collect_map {place : β → Point α} (hplace : ∀ p b, f p = .ok (some b) → place b = p)
    (h : collect f sites = .ok found) : (found.map place).Sublist sites ∧
      ∀ p, p ∈ found.map place ↔ p ∈ sites ∧ ∃ b, f p = .ok (some b) := by
  obtain ⟨samples, hsamples, hfound⟩ := bind_eq_ok.mp h
  obtain rfl := pure_eq_ok.mp hfound
  rw [mapM_eq_ok] at hsamples
  clear h hfound
  induction hsamples with
  | nil => simp
  | @cons p sample sites samples hsample _ ih =>
    cases sample with
    | none =>
      rw [List.filterMap_cons_none rfl]
      refine ⟨ih.1.cons p, fun q => (ih.2 q).trans ?_⟩
      refine ⟨fun ⟨hq, hb⟩ => ⟨List.mem_cons_of_mem p hq, hb⟩, fun ⟨hq, b, hb⟩ => ⟨?_, b, hb⟩⟩
      refine (List.mem_cons.mp hq).resolve_left fun heq => ?_
      cases (heq ▸ hb).symm.trans hsample
    | some b =>
      obtain rfl := hplace p b hsample
      rw [List.filterMap_cons_some (id_eq (some b)), List.map_cons]
      refine ⟨ih.1.cons_cons _, fun q => ?_⟩
      rw [List.mem_cons, List.mem_cons, ih.2]
      constructor
      · rintro (rfl | ⟨hq, hb⟩)
        · exact ⟨.inl rfl, b, hsample⟩
        · exact ⟨.inr hq, hb⟩
      · rintro ⟨rfl | hq, hb⟩
        · exact .inl rfl
        · exact .inr ⟨hq, hb⟩

end

/-! ### Sites -/

variable {α : Type} [LawfulScalar α] {extent : Extent α} {spatial : Bool} {cells : ℕ} {a : α} {p q : Point α}

/-- Whether a number is one of the ends of `cells` equal parts of an axis. -/
def OnAxis (extent : α) (cells : ℕ) (a : α) : Prop :=
  ∃ k ≤ cells, a = position extent cells k

/-- The sites of a field: a lattice in space, or one of twice as many cells on the floor. -/
def IsSite (spatial : Bool) (extent : Extent α) (cells : ℕ) (p : Point α) : Prop :=
  if spatial then OnAxis extent.x cells p.x ∧ OnAxis extent.y cells p.y ∧ OnAxis extent.z cells p.z
  else OnAxis extent.x (2 * cells) p.x ∧ OnAxis extent.y (2 * cells) p.y ∧ p.z = 0

/-- The order of sites, with x first. -/
def Precedes (p q : Point α) : Prop :=
  p.x < q.x ∨ p.x = q.x ∧ (p.y < q.y ∨ p.y = q.y ∧ p.z < q.z)

theorem Precedes.ne (h : Precedes p q) : p ≠ q := by
  rintro rfl
  rcases h with h | ⟨-, h | ⟨-, h⟩⟩ <;> exact lt_irrefl _ h

/-! ### One axis -/

/-- The positions on an axis, in their order. -/
def ticks (extent : α) (cells : ℕ) : List α :=
  (List.range (cells + 1)).map (position extent cells)

theorem mem_ticks {extent : α} : a ∈ ticks extent cells ↔ OnAxis extent cells a := by
  simp only [ticks, OnAxis, List.mem_map, List.mem_range, Nat.lt_succ_iff, @eq_comm _ a]

theorem length_ticks (extent : α) (cells : ℕ) : (ticks extent cells).length = cells + 1 := by
  rw [ticks, List.length_map, List.length_range]

theorem ticks_pairwise {extent : α} (hextent : 0 < extent) (cells : ℕ) : (ticks extent cells).Pairwise (· < ·) :=
  vertices_pairwise hextent (vertices_eq extent cells)

/-! ### The lattice -/

theorem spaceSites_eq (extent : Extent α) (cells : ℕ) : spaceSites extent cells =
    .ok ((ticks extent.x cells).flatMap fun x => (ticks extent.y cells).flatMap fun y =>
      (ticks extent.z cells).map fun z => ⟨x, y, z⟩) := by
  rw [spaceSites, vertices_eq, vertices_eq, vertices_eq]
  rfl

theorem floorSites_eq (extent : Extent α) (cells : ℕ) : floorSites extent cells =
    .ok ((ticks extent.x (2 * cells)).flatMap fun x => (ticks extent.y (2 * cells)).map fun y => ⟨x, y, 0⟩) := by
  have hcells : (cells : ℤ) * 2 = (2 * cells : ℕ) := by
    push_cast
    ring
  rw [floorSites, hcells, vertices_eq, vertices_eq, Scalar.literal_zero]
  rfl

/-- What is known of the list of sites. -/
structure Sites (spatial : Bool) (extent : Extent α) (cells : ℕ) (sites : List (Point α)) : Prop where
  mem_iff (p : Point α) : p ∈ sites ↔ IsSite spatial extent cells p
  ordered : sites.Pairwise Precedes
  length : sites.length = if spatial then (cells + 1) ^ 3 else (2 * cells + 1) ^ 2

theorem spaceSites_sites (h : extent.Positive) (cells : ℕ) :
    ∃ sites, spaceSites extent cells = .ok sites ∧ Sites true extent cells sites := by
  refine ⟨_, spaceSites_eq extent cells, fun p => ?_, ?_, ?_⟩
  · simp only [IsSite, if_true, List.mem_flatMap, List.mem_map, mem_ticks]
    constructor
    · rintro ⟨x, hx, y, hy, z, hz, rfl⟩
      exact ⟨hx, hy, hz⟩
    · rintro ⟨hx, hy, hz⟩
      exact ⟨p.x, hx, p.y, hy, p.z, hz, rfl⟩
  · refine List.pairwise_flatMap.mpr ⟨fun x _ => List.pairwise_flatMap.mpr ⟨fun y _ => ?_, ?_⟩, ?_⟩
    · exact List.pairwise_map.mpr ((ticks_pairwise h.z cells).imp fun hlt => .inr ⟨rfl, .inr ⟨rfl, hlt⟩⟩)
    · refine (ticks_pairwise h.y cells).imp fun hlt p hp q hq => ?_
      obtain ⟨_, -, rfl⟩ := List.mem_map.mp hp
      obtain ⟨_, -, rfl⟩ := List.mem_map.mp hq
      exact .inr ⟨rfl, .inl hlt⟩
    · refine (ticks_pairwise h.x cells).imp fun hlt p hp q hq => ?_
      obtain ⟨_, -, hp⟩ := List.mem_flatMap.mp hp
      obtain ⟨_, -, rfl⟩ := List.mem_map.mp hp
      obtain ⟨_, -, hq⟩ := List.mem_flatMap.mp hq
      obtain ⟨_, -, rfl⟩ := List.mem_map.mp hq
      exact .inl hlt
  · simp only [List.length_flatMap, List.length_map, length_ticks, List.map_const', List.sum_replicate, if_true,
      smul_eq_mul]
    ring

theorem floorSites_sites (h : extent.Positive) (cells : ℕ) :
    ∃ sites, floorSites extent cells = .ok sites ∧ Sites false extent cells sites := by
  refine ⟨_, floorSites_eq extent cells, fun p => ?_, ?_, ?_⟩
  · simp only [IsSite, Bool.false_eq_true, if_false, List.mem_flatMap, List.mem_map, mem_ticks]
    constructor
    · rintro ⟨x, hx, y, hy, rfl⟩
      exact ⟨hx, hy, rfl⟩
    · rintro ⟨hx, hy, hz⟩
      exact ⟨p.x, hx, p.y, hy, by rw [← hz]⟩
  · refine List.pairwise_flatMap.mpr ⟨fun x _ => ?_, ?_⟩
    · exact List.pairwise_map.mpr ((ticks_pairwise h.y _).imp fun hlt => .inr ⟨rfl, .inl hlt⟩)
    · refine (ticks_pairwise h.x _).imp fun hlt p hp q hq => ?_
      obtain ⟨_, -, rfl⟩ := List.mem_map.mp hp
      obtain ⟨_, -, rfl⟩ := List.mem_map.mp hq
      exact .inl hlt
  · simp only [List.length_flatMap, List.length_map, length_ticks, List.map_const', List.sum_replicate,
      Bool.false_eq_true, if_false, smul_eq_mul]
    ring

theorem fieldSites_sites (h : extent.Positive) (spatial : Bool) (cells : ℕ) :
    ∃ sites, fieldSites spatial extent cells = .ok sites ∧ Sites spatial extent cells sites := by
  cases spatial with
  | true => exact spaceSites_sites h cells
  | false => exact floorSites_sites h cells

/-- Whether a point is in the box that an extent spans around the origin. -/
structure Within (extent : Extent α) (p : Point α) : Prop where
  x : |p.x| ≤ extent.x
  y : |p.y| ≤ extent.y
  z : |p.z| ≤ extent.z

/-- Sites are in the box, for any number of cells that there are sites for. -/
theorem within_of_mem_fieldSites {cells : ℤ} {sites : List (Point α)} (h : extent.Positive)
    (hsites : fieldSites spatial extent cells = .ok sites) (hp : p ∈ sites) : Within extent p := by
  unfold fieldSites at hsites
  split at hsites
  · obtain ⟨xs, hxs, hsites⟩ := bind_eq_ok.mp hsites
    obtain ⟨ys, hys, hsites⟩ := bind_eq_ok.mp hsites
    obtain ⟨zs, hzs, hsites⟩ := bind_eq_ok.mp hsites
    obtain rfl := pure_eq_ok.mp hsites
    obtain ⟨x, hx, hp⟩ := List.mem_flatMap.mp hp
    obtain ⟨y, hy, hp⟩ := List.mem_flatMap.mp hp
    obtain ⟨z, hz, rfl⟩ := List.mem_map.mp hp
    exact ⟨abs_le_of_mem_vertices h.x.le hxs hx, abs_le_of_mem_vertices h.y.le hys hy,
      abs_le_of_mem_vertices h.z.le hzs hz⟩
  · obtain ⟨xs, hxs, hsites⟩ := bind_eq_ok.mp hsites
    obtain ⟨ys, hys, hsites⟩ := bind_eq_ok.mp hsites
    obtain rfl := pure_eq_ok.mp hsites
    obtain ⟨x, hx, hp⟩ := List.mem_flatMap.mp hp
    obtain ⟨y, hy, rfl⟩ := List.mem_map.mp hp
    refine ⟨abs_le_of_mem_vertices h.x.le hxs hx, abs_le_of_mem_vertices h.y.le hys hy, ?_⟩
    rw [Scalar.literal_zero, abs_zero]
    exact h.z.le

theorem Sites.ncard {sites : List (Point α)} (h : Sites spatial extent cells sites) :
    {p | IsSite spatial extent cells p}.ncard = sites.length := by
  classical
  have hset : {p | IsSite spatial extent cells p} = ↑sites.toFinset := by
    ext p
    rw [Set.mem_ofPred_eq, Finset.mem_coe, List.mem_toFinset, h.mem_iff]
  rw [hset, Set.ncard_coe_finset, List.toFinset_card_of_nodup (h.ordered.imp fun hlt => hlt.ne)]

end FieldPlot.Sampling
