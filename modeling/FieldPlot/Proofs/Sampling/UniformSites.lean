import FieldPlot.Proofs.Sampling.SceneUnits
import FieldPlot.Proofs.Sampling.Totality
import FieldPlot.Proofs.Sampling.Vertices
import FieldPlot.Request

/-! The points of a lattice and of a mesh in scene units. In each coordinate the points of a lattice are all finite and
far from the largest number, or none of them is finite. A corner of a mesh is far from it wherever it is finite. -/

namespace FieldPlot

open HasValue (value)
open Scalar (Within)
open Vectors (SurfaceMode Vec)

/-! ### Samples -/

section

variable {α : Type} [Scalar α]

/-- Samples that are finite where there are any. -/
structure Request.Samples.Finite (samples : Request.Samples α) : Prop where
  vector {p : Point α} {v : Vec (Option α)} : samples.vector p = .ok v →
    ∀ c ∈ [v.x, v.y, v.z], ∀ a, c = some a → Scalar.isFinite a = true

theorem Scalar.isFinite_of_finite? {a b : α} (h : finite? a = some b) : isFinite b = true := by
  unfold finite? at h
  split at h
  · next hfinite => exact Option.some.inj h ▸ hfinite
  · cases h

theorem Request.samples_finite [Expression.Arithmetic α] (r : Request) : (r.samples : Samples α).Finite where
  vector {p v} h c hc a ha := by
    obtain ⟨field, hfield⟩ : ∃ field : Vectors.FieldFormula α, (r.samples : Samples α).vector p = field.sample p :=
      ⟨_, rfl⟩
    rw [hfield, Vectors.FieldFormula.sample] at h
    cases hvalue : field.value p with
    | error _ =>
      rw [hvalue] at h
      cases h
    | ok w =>
      rw [hvalue] at h
      obtain rfl := Except.ok.inj h
      simp only [Vec.map, List.mem_cons, List.not_mem_nil, or_false] at hc
      rcases hc with rfl | rfl | rfl <;> exact Scalar.isFinite_of_finite? ha

end

/-! ### Points -/

structure Point.Finite {α : Type} [Scalar α] (p : Point α) : Prop where
  x : Scalar.isFinite p.x = true
  y : Scalar.isFinite p.y = true
  z : Scalar.isFinite p.z = true

structure Point.Within {α K : Type} [Scalar α] [Field K] [LinearOrder K] [HasValue α K] (p : Point α) (i : ℤ) :
    Prop where
  x : Scalar.Within p.x i
  y : Scalar.Within p.y i
  z : Scalar.Within p.z i

namespace Sampling

variable {α K β γ : Type} [Scalar α] [Field K] [LinearOrder K] [HasValue α K]

/-! ### Lattices -/

/-- A point of the model in scene units. -/
def Extent.scene (extent : Extent α) (p : Point α) : Point α :=
  ⟨p.x * (200.0 / extent.x), p.y * (200.0 / extent.y), p.z * (200.0 / extent.z)⟩

/-- An extent with axes that scene units can be made of. -/
structure Extent.Spanned (extent : Extent α) : Prop where
  x : Sampling.Spanned extent.x
  y : Sampling.Spanned extent.y
  z : Sampling.Spanned extent.z

structure UniformPoints (f : β → Point α) (l : List β) : Prop where
  x : Uniform (fun b => (f b).x) l
  y : Uniform (fun b => (f b).y) l
  z : Uniform (fun b => (f b).z) l

/-- Points that are all finite and far from the largest number, or none of which is finite. -/
theorem UniformPoints.all_or_none {f : β → Point α} {l : List β} (h : UniformPoints f l) :
    (∀ b ∈ l, (f b).Within 977) ∨ ∀ b ∈ l, ¬(f b).Finite := by
  rcases h.x with hx | hx
  · rcases h.y with hy | hy
    · rcases h.z with hz | hz
      · exact .inl fun b hb => ⟨hx b hb, hy b hb, hz b hb⟩
      · exact .inr fun b hb hfinite => Bool.false_ne_true ((hz b hb).symm.trans hfinite.z)
    · exact .inr fun b hb hfinite => Bool.false_ne_true ((hy b hb).symm.trans hfinite.y)
  · exact .inr fun b hb hfinite => Bool.false_ne_true ((hx b hb).symm.trans hfinite.x)

variable {f : β → α} {g : γ → α} {l : List β} {m : List γ} {b : β}

theorem Uniform.within (h : Uniform f l) (hb : b ∈ l) (hfinite : Scalar.isFinite (f b) = true) : Within (f b) 977 :=
  h.elim (fun h => h b hb) fun h => absurd ((h b hb).symm.trans hfinite) Bool.false_ne_true

theorem Uniform.of_mem (h : Uniform f l) (hmem : ∀ c ∈ m, ∃ b ∈ l, g c = f b) : Uniform g m := by
  refine h.imp (fun h c hc => ?_) fun h c hc => ?_ <;>
  · obtain ⟨b, hb, heq⟩ := hmem c hc
    exact heq ▸ h b hb

theorem UniformPoints.of_mem {f : β → Point α} {g : γ → Point α} (h : UniformPoints f l)
    (hmem : ∀ c ∈ m, ∃ b ∈ l, g c = f b) : UniformPoints g m where
  x := h.x.of_mem fun c hc => (hmem c hc).imp fun _ hb => ⟨hb.1, congrArg Point.x hb.2⟩
  y := h.y.of_mem fun c hc => (hmem c hc).imp fun _ hb => ⟨hb.1, congrArg Point.y hb.2⟩
  z := h.z.of_mem fun c hc => (hmem c hc).imp fun _ hb => ⟨hb.1, congrArg Point.z hb.2⟩

variable [IsStrictOrderedRing K] [RoundedScalar α K] {extent : Extent α} {cells : ℤ} {sites : List (Point α)}
  {spatial : Bool}

theorem fieldSites_uniform (hbounded : Scalar.isBounded α = true) (hextent : extent.Spanned)
    (h : fieldSites spatial extent cells = .ok sites) : UniformPoints extent.scene sites := by
  unfold fieldSites at h
  split at h
  · obtain ⟨xs, hxs, h⟩ := bind_eq_ok.mp h
    obtain ⟨ys, hys, h⟩ := bind_eq_ok.mp h
    obtain ⟨zs, hzs, h⟩ := bind_eq_ok.mp h
    obtain rfl := pure_eq_ok.mp h
    have hmem {p : Point α} (hp : p ∈ xs.flatMap fun x => ys.flatMap fun y => zs.map fun z => ⟨x, y, z⟩) :
        p.x ∈ xs ∧ p.y ∈ ys ∧ p.z ∈ zs := by
      obtain ⟨x, hx, hp⟩ := List.mem_flatMap.mp hp
      obtain ⟨y, hy, hp⟩ := List.mem_flatMap.mp hp
      obtain ⟨z, hz, rfl⟩ := List.mem_map.mp hp
      exact ⟨hx, hy, hz⟩
    exact ⟨(vertices_uniform hbounded hextent.x hxs).of_mem fun p hp => ⟨p.x, (hmem hp).1, rfl⟩,
      (vertices_uniform hbounded hextent.y hys).of_mem fun p hp => ⟨p.y, (hmem hp).2.1, rfl⟩,
      (vertices_uniform hbounded hextent.z hzs).of_mem fun p hp => ⟨p.z, (hmem hp).2.2, rfl⟩⟩
  · obtain ⟨xs, hxs, h⟩ := bind_eq_ok.mp h
    obtain ⟨ys, hys, h⟩ := bind_eq_ok.mp h
    obtain rfl := pure_eq_ok.mp h
    have hmem {p : Point α} (hp : p ∈ xs.flatMap fun x => ys.map fun y => (⟨x, y, 0.0⟩ : Point α)) :
        p.x ∈ xs ∧ p.y ∈ ys ∧ p.z = 0.0 := by
      obtain ⟨x, hx, hp⟩ := List.mem_flatMap.mp hp
      obtain ⟨y, hy, rfl⟩ := List.mem_map.mp hp
      exact ⟨hx, hy, rfl⟩
    refine ⟨(vertices_uniform hbounded hextent.x hxs).of_mem fun p hp => ⟨p.x, (hmem hp).1, rfl⟩,
      (vertices_uniform hbounded hextent.y hys).of_mem fun p hp => ⟨p.y, (hmem hp).2.1, rfl⟩,
      Uniform.of_zero fun p hp => ?_⟩
    rw [(hmem hp).2.2]
    exact ValuedScalar.zero

omit [IsStrictOrderedRing K] [RoundedScalar α K] in
theorem collected_uniform {f : Point α → Except Fault β} {read : β → Option α} {readings : List (Reading α)}
    (hsites : UniformPoints extent.scene sites)
    (h : collect (fun p => return (read (← f p)).map (Reading.mk p)) sites = .ok readings) :
    UniformPoints (fun r => extent.scene r.position) readings := by
  refine hsites.of_mem fun r hr => ?_
  obtain ⟨p, hp, hr⟩ := exists_of_mem_collect h hr
  obtain ⟨sample, -, hr⟩ := bind_eq_ok.mp hr
  obtain ⟨_, -, rfl⟩ := Option.map_eq_some_iff.mp (pure_eq_ok.mp hr)
  exact ⟨p, hp, rfl⟩

theorem scalarField_uniform {f : Point α → Except Fault (Option α)} {readings : List (Reading α)}
    (hbounded : Scalar.isBounded α = true) (hextent : extent.Spanned) (h : scalarField f extent cells = .ok readings) :
    UniformPoints (fun r => extent.scene r.position) readings := by
  obtain ⟨sites, hsites, h⟩ := bind_eq_ok.mp h
  have hsites : fieldSites true extent cells = .ok sites := hsites
  exact collected_uniform (fieldSites_uniform hbounded hextent hsites) h

theorem fieldMagnitudes_uniform {f : Point α → Except Fault (Vec (Option α))} {readings : List (Reading α)}
    (hbounded : Scalar.isBounded α = true) (hextent : extent.Spanned)
    (h : fieldMagnitudes f spatial extent cells = .ok readings) :
    UniformPoints (fun r => extent.scene r.position) readings := by
  obtain ⟨sites, hsites, h⟩ := bind_eq_ok.mp h
  exact collected_uniform (fieldSites_uniform hbounded hextent hsites) h

/-! ### Arrows -/

/-- The scalar that colours a restricted vector is finite. -/
theorem isFinite_of_restrict? {mode : SurfaceMode} {v : Vec (Option α)} {w : Vec α} {magnitude value : α}
    (hv : ∀ c ∈ [v.x, v.y, v.z], ∀ a, c = some a → Scalar.isFinite a = true)
    (h : v.restrict? mode = some (w, magnitude, value)) : Scalar.isFinite value = true := by
  have haxis {c : Option α} (hc : c ∈ [v.x, v.y, v.z]) {f : α → Vec α × α × α} (hf : ∀ a, (f a).2.2 = a)
      (h : c.map f = some (w, magnitude, value)) : Scalar.isFinite value = true := by
    obtain ⟨a, ha, h⟩ := Option.map_eq_some_iff.mp h
    obtain rfl : a = value := (hf a).symm.trans (congrArg (·.2.2) h)
    exact hv c hc a ha
  cases mode with
  | x => exact haxis (by simp) (fun _ => rfl) h
  | y => exact haxis (by simp) (fun _ => rfl) h
  | z => exact haxis (by simp) (fun _ => rfl) h
  | none | magnitude =>
    simp only [Vec.restrict?, Option.bind_eq_bind, Option.bind_eq_some_iff, Option.pure_def, Option.some.injEq,
      Prod.mk.injEq] at h
    obtain ⟨m, hm, _, _, _, _, _, _, _, _, rfl⟩ := h
    simp only [Vec.magnitude?, Option.bind_eq_bind, Option.bind_eq_some_iff] at hm
    obtain ⟨_, _, _, _, _, _, hm⟩ := hm
    exact Scalar.isFinite_of_finite? hm

theorem exists_sites_of_arrows {f : Point α → Except Fault (Vec (Option α))} {mode : SurfaceMode}
    {found : List (Arrow α)} (h : arrows f spatial mode extent cells = .ok found) :
    ∃ sites, fieldSites spatial extent cells = .ok sites ∧ ∀ a ∈ found, a.start ∈ sites ∧
      ∃ v w, f a.start = .ok v ∧ v.restrict? mode = some (w, a.magnitude, a.surfaceValue) := by
  obtain ⟨sites, hsites, h⟩ := bind_eq_ok.mp h
  refine ⟨sites, hsites, fun a ha => ?_⟩
  obtain ⟨p, hp, h⟩ := exists_of_mem_collect h ha
  obtain ⟨v, hv, h⟩ := bind_eq_ok.mp h
  unfold arrowAt? at h
  split at h
  · next w magnitude value hrestrict =>
    split at h
    · cases h
    · obtain ⟨_, -, h⟩ := bind_eq_ok.mp h
      cases pure_eq_ok.mp h
      exact ⟨hp, v, w, hv, hrestrict⟩
  · cases h

/-- Of finite numbers the largest one is not below any. -/
theorem largest?_finite {values : List α} {m : α} (hvalues : ∀ a ∈ values, Scalar.isFinite a = true)
    (h : Scalar.largest? values = some m) : Scalar.isFinite m = true ∧ ∀ a ∈ values, value a ≤ value m := by
  have hlarger {a b : α} (ha : Scalar.isFinite a = true) (hb : Scalar.isFinite b = true) :
      Scalar.isFinite (Scalar.larger a b) = true ∧ value a ≤ value (Scalar.larger a b) ∧
        value b ≤ value (Scalar.larger a b) := by
    unfold Scalar.larger
    split
    · next hlt => exact ⟨hb, ((Scalar.lt_iff_value ha hb).mp hlt).le, le_rfl⟩
    · next hle => exact ⟨ha, le_rfl, not_lt.mp fun hlt => hle ((Scalar.lt_iff_value ha hb).mpr hlt)⟩
  cases values with
  | nil => cases h
  | cons a values =>
    obtain rfl := Option.some.inj h
    clear h
    induction values generalizing a with
    | nil => exact ⟨hvalues a List.mem_cons_self, fun b hb => (List.mem_singleton.mp hb ▸ le_rfl)⟩
    | cons b values ih =>
      obtain ⟨ha, hvalues⟩ := List.forall_mem_cons.mp hvalues
      obtain ⟨hb, hvalues⟩ := List.forall_mem_cons.mp hvalues
      obtain ⟨hfinite, hale, hble⟩ := hlarger ha hb
      obtain ⟨hm, hle⟩ := ih (Scalar.larger a b) (List.forall_mem_cons.mpr ⟨hfinite, hvalues⟩)
      obtain ⟨hfirst, hrest⟩ := List.forall_mem_cons.mp hle
      exact ⟨hm, List.forall_mem_cons.mpr ⟨hale.trans hfirst, List.forall_mem_cons.mpr ⟨hble.trans hfirst, hrest⟩⟩⟩

/-! ### Meshes -/

/-- A mesh over an extent, with heights that have been moved into the value range. -/
structure Mesh (extent : Extent α) (cells : ℤ) (g : Grid α) : Prop where
  xs : vertices extent.x cells = .ok g.xs.toList
  ys : vertices extent.y cells = .ok g.ys.toList
  height : ∀ i j, (∃ v, (g.vertex i j).height = confine (-extent.z) extent.z v) ∨ (g.vertex i j).height = 0.0

variable {grid : Grid α}

omit [Field K] [LinearOrder K] [HasValue α K] [IsStrictOrderedRing K] [RoundedScalar α K] in
theorem surface_mesh {f : Point α → Except Fault (Option α)} (h : surface f extent cells = .ok grid) :
    Mesh extent cells grid := by
  obtain ⟨xs, hxs, h⟩ := bind_eq_ok.mp h
  obtain ⟨ys, hys, h⟩ := bind_eq_ok.mp h
  obtain ⟨hx, hy, hsamples⟩ := Grid.ofSamples_eq_ok h
  have hheight := hsamples.forall_vertex
    (P := fun v => (∃ value, v.height = confine (-extent.z) extent.z value) ∨ v.height = 0.0)
    (fun value _ => .inl ⟨value, rfl⟩) (.inr rfl)
  exact ⟨hx ▸ hxs, hy ▸ hys, hheight⟩

theorem scaledSurface_mesh {f : Point α → Except Fault (Option α)} (h : scaledSurface f extent cells = .ok grid) :
    Mesh extent cells grid := by
  obtain ⟨xs, hxs, h⟩ := bind_eq_ok.mp h
  obtain ⟨ys, hys, h⟩ := bind_eq_ok.mp h
  obtain ⟨plain, hplain, h⟩ := bind_eq_ok.mp h
  obtain ⟨hx, hy, hsamples⟩ := Grid.ofSamples_eq_ok hplain
  obtain ⟨scale, -, h⟩ := branch_eq_ok.mp h
  obtain rfl := pure_eq_ok.mp h
  refine ⟨?_, ?_, fun i j => ?_⟩
  · show vertices extent.x cells = .ok plain.xs.toList
    exact hx ▸ hxs
  · show vertices extent.y cells = .ok plain.ys.toList
    exact hy ▸ hys
  · by_cases hij : i < plain.xs.size ∧ j < plain.ys.size
    · exact .inl ⟨_, congrArg Vertex.height (Grid.vertex_mapHeights hsamples.toFull _ hij.1 hij.2)⟩
    · exact .inr (congrArg Vertex.height ((hsamples.toFull.mapHeights _).vertex_outside hij))

/-- A corner of a mesh, in scene units. -/
theorem Mesh.corner_within (h : Mesh extent cells grid) (hbounded : Scalar.isBounded α = true)
    (hextent : extent.Spanned) {i j : ℕ}
    (hfinite : (extent.scene ⟨grid.x i, grid.y j, (grid.vertex i j).height⟩).Finite) :
    (extent.scene ⟨grid.x i, grid.y j, (grid.vertex i j).height⟩).Within 977 := by
  have hzero {scale : α} (h : Scalar.isFinite (0.0 * scale) = true) : Within (0.0 * scale) 977 :=
    within_of_zero ValuedScalar.zero.1 (RoundedScalar.isFinite_of_mul h).2
      (by rw [(ValuedScalar.zero (α := α)).2, zero_mul])
  have hposition {xs : Array α} {r : α} (hr : Sampling.Spanned r) (hxs : vertices r cells = .ok xs.toList) {k : ℕ}
      (h : Scalar.isFinite ((if h : k < xs.size then xs[k] else 0.0) * (200.0 / r)) = true) :
      Within ((if h : k < xs.size then xs[k] else 0.0) * (200.0 / r)) 977 := by
    split at h
    · next hk =>
      rw [dif_pos hk]
      exact (vertices_uniform hbounded hr hxs).within (Array.getElem_mem_toList hk) h
    · next hk =>
      rw [dif_neg hk]
      exact hzero h
  refine ⟨hposition hextent.x h.xs hfinite.x, hposition hextent.y h.ys hfinite.y, ?_⟩
  obtain ⟨z, hz⟩ : ∃ z, (grid.vertex i j).height = z := ⟨_, rfl⟩
  have hfinite := hfinite.z
  rw [hz] at hfinite ⊢
  rcases h.height i j with ⟨v, hv⟩ | hv
  · obtain rfl := hz.symm.trans hv
    exact scaled_within_of_finite hbounded hextent.z (fun hr hv => near_confine hr hv) hfinite
  · obtain rfl := hz.symm.trans hv
    exact hzero hfinite

end Sampling

end FieldPlot
