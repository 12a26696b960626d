import FieldPlot.Proofs.Sampling.Sites

/-! Arrows on a lattice, in real numbers. The arrows that are drawn and the surface beneath them are computed apart;
both take the same scalar of a vector, and an arrow is left out only where there is next to nothing to draw. -/

namespace FieldPlot

open Vectors (SurfaceMode Vec)

variable {mode : SurfaceMode} {v : Vec (Option ℝ)} {w : Vec ℝ} {p : Point ℝ}

/-! ### Vectors restricted to a mode -/

namespace Vectors.Vec

/-- Whether `w` is a sampled vector restricted to a mode: the components that are shown have been sampled, and the
other ones are zero. -/
structure IsRestriction (mode : SurfaceMode) (v : Vec (Option ℝ)) (w : Vec ℝ) : Prop where
  x : if mode ∈ [.none, .magnitude, .x] then v.x = some w.x else w.x = 0
  y : if mode ∈ [.none, .magnitude, .y] then v.y = some w.y else w.y = 0
  z : if mode ∈ [.none, .magnitude, .z] then v.z = some w.z else w.z = 0

theorem magnitude_eq (w : Vec ℝ) : w.magnitude = Real.sqrt (w.x * w.x + w.y * w.y + w.z * w.z) :=
  rfl

theorem magnitude_scale (w : Vec ℝ) {k : ℝ} (hk : 0 ≤ k) : (w.scale k).magnitude = k * w.magnitude := by
  have hsquares : w.x * k * (w.x * k) + w.y * k * (w.y * k) + w.z * k * (w.z * k) =
      k ^ 2 * (w.x * w.x + w.y * w.y + w.z * w.z) := by ring
  rw [magnitude_eq, magnitude_eq, scale, hsquares, Real.sqrt_mul (sq_nonneg k), Real.sqrt_sq hk]

/-- A restricted vector comes with its own length and with the scalar that the mode shows. -/
theorem IsRestriction.restrict?_eq (h : IsRestriction mode v w) : ∃ value,
    v.restrict? mode = some (w, w.magnitude, value) ∧ (mode ≠ .none → v.component? mode = some value) := by
  obtain ⟨vx, vy, vz⟩ := v
  obtain ⟨wx, wy, wz⟩ := w
  obtain ⟨hx, hy, hz⟩ := h
  cases mode with
  | none =>
    obtain rfl : vx = some wx := hx
    obtain rfl : vy = some wy := hy
    obtain rfl : vz = some wz := hz
    exact ⟨_, rfl, fun hmode => absurd rfl hmode⟩
  | magnitude =>
    obtain rfl : vx = some wx := hx
    obtain rfl : vy = some wy := hy
    obtain rfl : vz = some wz := hz
    exact ⟨_, rfl, fun _ => rfl⟩
  | x =>
    obtain rfl : vx = some wx := hx
    obtain rfl : wy = 0 := hy
    obtain rfl : wz = 0 := hz
    refine ⟨wx, ?_, fun _ => rfl⟩
    simp [restrict?, magnitude_eq, Real.sqrt_mul_self_eq_abs, Scalar.literal_zero, LawfulScalar.abs_eq]
  | y =>
    obtain rfl : wx = 0 := hx
    obtain rfl : vy = some wy := hy
    obtain rfl : wz = 0 := hz
    refine ⟨wy, ?_, fun _ => rfl⟩
    simp [restrict?, magnitude_eq, Real.sqrt_mul_self_eq_abs, Scalar.literal_zero, LawfulScalar.abs_eq]
  | z =>
    obtain rfl : wx = 0 := hx
    obtain rfl : wy = 0 := hy
    obtain rfl : vz = some wz := hz
    refine ⟨wz, ?_, fun _ => rfl⟩
    simp [restrict?, magnitude_eq, Real.sqrt_mul_self_eq_abs, Scalar.literal_zero, LawfulScalar.abs_eq]

theorem isRestriction_of_restrict? {magnitude value : ℝ} (h : v.restrict? mode = some (w, magnitude, value)) :
    IsRestriction mode v w := by
  obtain ⟨vx, vy, vz⟩ := v
  cases mode with
  | none | magnitude =>
    simp only [restrict?, Option.bind_eq_bind, Option.bind_eq_some_iff, Option.pure_def, Option.some.injEq,
      Prod.mk.injEq] at h
    obtain ⟨m, hm, x, hx, y, hy, z, hz, rfl, -, -⟩ := h
    exact ⟨hx, hy, hz⟩
  | x =>
    obtain ⟨a, ha, h⟩ := Option.map_eq_some_iff.mp h
    obtain rfl := (Prod.mk.inj h).1
    exact ⟨ha, Scalar.literal_zero, Scalar.literal_zero⟩
  | y =>
    obtain ⟨a, ha, h⟩ := Option.map_eq_some_iff.mp h
    obtain rfl := (Prod.mk.inj h).1
    exact ⟨Scalar.literal_zero, ha, Scalar.literal_zero⟩
  | z =>
    obtain ⟨a, ha, h⟩ := Option.map_eq_some_iff.mp h
    obtain rfl := (Prod.mk.inj h).1
    exact ⟨Scalar.literal_zero, Scalar.literal_zero, ha⟩

end Vectors.Vec

namespace Sampling

/-! ### One site -/

theorem threshold_le_iff {a : ℝ} : ¬a < Vec.threshold ↔ 1 / 10 ^ 10 ≤ a := by
  rw [Vec.threshold, ExactScalar.scientific_eq, Nat.cast_one, not_lt]

theorem arrowAt_of_restriction (p : Point ℝ) (h : v.IsRestriction mode w) (hlong : 1 / 10 ^ 10 ≤ w.magnitude) :
    ∃ a, arrowAt? mode p v = .ok (some a) := by
  obtain ⟨value, hrestrict, -⟩ := h.restrict?_eq
  have hpos : 0 < w.magnitude := lt_of_lt_of_le (by norm_num) hlong
  rw [arrowAt?, hrestrict]
  dsimp only
  rw [if_neg (threshold_le_iff.mpr hlong), Scalar.divide_of_ne_zero hpos.ne']
  exact ⟨_, rfl⟩

/-- An arrow has the length 1 and stands for the restricted vector. -/
structure StandsFor (mode : SurfaceMode) (v : Vec (Option ℝ)) (a : Arrow ℝ) : Prop where
  unit : a.direction.magnitude = 1
  long : 1 / 10 ^ 10 ≤ a.magnitude
  restriction : v.IsRestriction mode (a.direction.scale a.magnitude)
  value : mode ≠ .none → v.component? mode = some a.surfaceValue

theorem standsFor_of_arrowAt {a : Arrow ℝ} (h : arrowAt? mode p v = .ok (some a)) :
    a.start = p ∧ StandsFor mode v a := by
  unfold arrowAt? at h
  split at h
  · next w magnitude value hrestrict =>
    have hrestriction := Vec.isRestriction_of_restrict? hrestrict
    obtain ⟨_, heq, hvalue⟩ := hrestriction.restrict?_eq
    rw [hrestrict] at heq
    cases heq
    split at h
    · cases h
    · next hle =>
      have hlong := threshold_le_iff.mp hle
      have hpos : 0 < w.magnitude := lt_of_lt_of_le (by norm_num) hlong
      rw [Scalar.divide_of_ne_zero hpos.ne', ok_bind, Scalar.literal_one] at h
      cases pure_eq_ok.mp h
      refine ⟨rfl, ?_, hlong, ?_, hvalue⟩
      · rw [Vec.magnitude_scale w (by positivity), one_div_mul_cancel hpos.ne']
      · have hback : (w.scale (1 / w.magnitude)).scale w.magnitude = w := by
          simp only [Vec.scale, mul_assoc, one_div_mul_cancel hpos.ne', mul_one]
        rwa [hback]
  · cases h

/-! ### The whole lattice -/

section

variable {f : Point ℝ → Except Fault (Vec (Option ℝ))} {spatial : Bool} {extent : Extent ℝ} {cells : ℕ}

/-- The vector at a point is long enough to be drawn. -/
inductive HasArrow (f : Point ℝ → Except Fault (Vec (Option ℝ))) (mode : SurfaceMode) (p : Point ℝ) : Prop
  | intro (v : Vec (Option ℝ)) (w : Vec ℝ) (value : f p = .ok v) (restriction : v.IsRestriction mode w)
    (long : 1 / 10 ^ 10 ≤ w.magnitude)

theorem arrow_returns_iff : Returns (do arrowAt? mode p (← f p)) ↔ Returns (f p) := by
  refine ⟨fun ⟨_, h⟩ => ?_, fun h => h.bind fun _ _ => arrowAt_returns _ _ _⟩
  obtain ⟨v, hv, -⟩ := bind_eq_ok.mp h
  exact ⟨v, hv⟩

theorem hasArrow_iff : HasArrow f mode p ↔ ∃ a, (do arrowAt? mode p (← f p)) = .ok (some a) := by
  constructor
  · rintro ⟨v, w, hv, hrestriction, hlong⟩
    rw [hv, ok_bind]
    exact arrowAt_of_restriction p hrestriction hlong
  · rintro ⟨a, h⟩
    obtain ⟨v, hv, harrow⟩ := bind_eq_ok.mp h
    obtain ⟨-, hstands⟩ := standsFor_of_arrowAt harrow
    have hmagnitude : (a.direction.scale a.magnitude).magnitude = a.magnitude := by
      rw [Vec.magnitude_scale _ (le_trans (by norm_num) hstands.long), hstands.unit, mul_one]
    exact ⟨v, _, hv, hstands.restriction, hstands.long.trans_eq hmagnitude.symm⟩

/-- Sampling fails only where the field does. Otherwise there is one arrow, of length 1, for each site with a vector
to draw, in the order of the sites. -/
theorem arrows_complete (h : extent.Positive) :
    {p | IsSite spatial extent cells p}.ncard = (if spatial then (cells + 1) ^ 3 else (2 * cells + 1) ^ 2) ∧
    (Returns (arrows f spatial mode extent cells) ↔ ∀ p, IsSite spatial extent cells p → Returns (f p)) ∧
    ∀ found, arrows f spatial mode extent cells = .ok found →
      (found.map (·.start)).Pairwise Precedes ∧
      (∀ p, p ∈ found.map (·.start) ↔ IsSite spatial extent cells p ∧ HasArrow f mode p) ∧
      ∀ a ∈ found, ∃ v, f a.start = .ok v ∧ StandsFor mode v a := by
  obtain ⟨sites, hsites, hlattice⟩ := fieldSites_sites h spatial cells
  rw [arrows, hsites, ok_bind]
  refine ⟨hlattice.ncard.trans hlattice.length, ?_, fun found hfound => ?_⟩
  · simp only [collect_returns_iff, arrow_returns_iff, hlattice.mem_iff]
  · have hplace (p : Point ℝ) (a : Arrow ℝ) (h : (do arrowAt? mode p (← f p)) = .ok (some a)) : a.start = p := by
      obtain ⟨_, -, harrow⟩ := bind_eq_ok.mp h
      exact (standsFor_of_arrowAt harrow).1
    obtain ⟨hsublist, hmem⟩ := collect_map hplace hfound
    refine ⟨hlattice.ordered.sublist hsublist, fun p => ?_, fun a ha => ?_⟩
    · rw [hmem, hlattice.mem_iff, hasArrow_iff]
    · obtain ⟨p, -, h⟩ := exists_of_mem_collect hfound ha
      obtain ⟨v, hv, harrow⟩ := bind_eq_ok.mp h
      obtain ⟨rfl, hstands⟩ := standsFor_of_arrowAt harrow
      exact ⟨v, hv, hstands⟩

/-- A field that turns around the origin. -/
def eddy (p : Point ℝ) : Except Fault (Vec (Option ℝ)) :=
  .ok ⟨some (-p.y), some p.x, some 0⟩

theorem arrows_complete_eddy : ∃ found, arrows eddy false .none ⟨5, 5, 5⟩ 1 = .ok found ∧
    (⟨5, 5, 0⟩ : Point ℝ) ∈ found.map (·.start) ∧ (⟨0, 0, 0⟩ : Point ℝ) ∉ found.map (·.start) := by
  have hextent : (⟨5, 5, 5⟩ : Extent ℝ).Positive := ⟨by norm_num, by norm_num, by norm_num⟩
  obtain ⟨-, hreturns, hfound⟩ := @arrows_complete .none eddy false ⟨5, 5, 5⟩ 1 hextent
  obtain ⟨found, hok⟩ := hreturns.mpr fun p _ => .ok _
  obtain ⟨-, hmem, -⟩ := hfound found hok
  refine ⟨found, hok, (hmem _).mpr ⟨?_, ?_⟩, fun horigin => ?_⟩
  · have hend : OnAxis (5 : ℝ) (2 * 1) 5 := ⟨2, le_rfl, by norm_num [position]⟩
    exact ⟨hend, hend, rfl⟩
  · refine ⟨_, ⟨-5, 5, 0⟩, rfl, ⟨rfl, rfl, rfl⟩, ?_⟩
    rw [Vec.magnitude_eq]
    exact Real.le_sqrt_of_sq_le (by norm_num)
  · obtain ⟨-, _, w, hv, ⟨hx, hy, hz⟩, hlong⟩ := (hmem _).mp horigin
    obtain rfl := Except.ok.inj hv
    have hzero : w.magnitude = 0 := by
      rw [Vec.magnitude_eq, ← Option.some.inj hx, ← Option.some.inj hy, ← Option.some.inj hz]
      simp
    rw [hzero] at hlong
    exact absurd hlong (by norm_num)

end

end Sampling

end FieldPlot
