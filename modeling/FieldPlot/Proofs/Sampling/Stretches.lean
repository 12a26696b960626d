import FieldPlot.Proofs.MaximalRuns
import FieldPlot.Proofs.Outcome
import FieldPlot.Proofs.Scalar.Counting
import FieldPlot.Sampling.Curve

/-! The stretches of a curve. They are the maximal runs of the samples that are drawn: every such sample is in
one of them, and they are cut at the rejected samples and the jumps and nowhere else. -/

namespace FieldPlot.Sampling

variable {α : Type} [Scalar α]

/-- The change from one sample to the next is no jump. -/
def Near (jump : α) (p q : α × α) : Prop :=
  ¬jump < Scalar.abs (q.2 - p.2)

theorem stretches_cutsRuns (jump : α) : CutsRuns (Near jump) (fun run => run) (stretches jump) where
  nil := rfl
  gap _ := rfl
  last _ := rfl
  before_gap _ _ := rfl
  linked h hpq := by
    rw [stretches, if_neg hpq]
    exact h
  parted h hpq := by
    rw [stretches, if_pos (not_not.mp hpq)]
    exact h

def abscissa (lo hi : α) (steps i : ℕ) : α :=
  lo + (hi - lo) * Scalar.ofNat i / Scalar.ofNat steps

/-- The samples that are drawn, each with its number: those with a finite value within the limit. -/
def drawn (lo hi : α) (steps : ℕ) (limit : Option α) (value : ℕ → α) : List (ℕ × α × α) :=
  ((List.range (steps + 1)).filter fun i => Scalar.isFinite (value i) && withinLimit limit (value i)).map
    fun i => (i, abscissa lo hi steps i, value i)

/-- One sample of a curve; none where it is not drawn. -/
def sampleAt (lo hi : α) (steps : ℕ) (limit : Option α) (value : ℕ → α) (i : ℕ) : Option (α × α) :=
  ((Scalar.finite? (value i)).filter (withinLimit limit)).map (abscissa lo hi steps i, ·)

variable {f : Point α → Except Fault α} {lo hi valueRange : α} {steps : ℕ} {limit : Option α} {value : ℕ → α}

theorem numbered_samples : numbered 0 ((List.range (steps + 1)).map (sampleAt lo hi steps limit value)) =
    drawn lo hi steps limit value := by
  rw [numbered_map_range, drawn, ← List.filterMap_eq_map, List.filterMap_filter]
  refine List.filterMap_congr fun i _ => ?_
  unfold sampleAt Scalar.finite?
  cases hfinite : Scalar.isFinite (value i) <;> cases hlimit : withinLimit limit (value i) <;>
    simp [hlimit, Option.filter]

theorem curve_eq_stretches [CountingScalar α] (hsteps : 1 ≤ steps)
    (hcount : Returns (Scalar.ofInt? (α := α) steps))
    (hf : ∀ i ≤ steps, f ⟨abscissa lo hi steps i, 0.0, 0.0⟩ = .ok (value i)) :
    curve (fun p => (f p).map Scalar.finite?) lo hi valueRange steps limit =
      .ok (stretches (valueRange * 0.5) ((List.range (steps + 1)).map (sampleAt lo hi steps limit value))) := by
  have htotal : Scalar.ofInt? (steps : ℤ) = .ok (Scalar.ofInt steps : α) := by
    obtain ⟨total, htotal⟩ := hcount
    unfold Scalar.ofInt? at htotal ⊢
    split at htotal
    · cases htotal
    · next hsize => exact if_neg hsize
  unfold curve
  rw [if_neg (by omega), htotal, ok_bind, Int.toNat_natCast]
  refine bind_eq_ok.mpr ⟨_, mapM_eq_ok.mpr ?_, rfl⟩
  refine List.forall₂_map_right_iff.mpr (List.forall₂_same.mpr fun i hi => ?_)
  have hvalue := hf i (Nat.lt_succ_iff.mp (List.mem_range.mp hi))
  rw [Scalar.divide_ofInt _ (by omega), ok_bind]
  exact bind_eq_ok.mpr ⟨_, congrArg (Except.map Scalar.finite?) hvalue, rfl⟩

/-- A curve is the one way to cut the drawn samples into runs that have neither a rejected sample nor a jump
in them and between any two of which there is one. -/
theorem curve_maximal [CountingScalar α] (hsteps : 1 ≤ steps)
    (hcount : Returns (Scalar.ofInt? (α := α) steps))
    (hf : ∀ i ≤ steps, f ⟨abscissa lo hi steps i, 0.0, 0.0⟩ = .ok (value i)) :
    ∃ runs, curve (fun p => (f p).map Scalar.finite?) lo hi valueRange steps limit =
        .ok (runs.map (·.map Prod.snd)) ∧
      ∀ runs', MaximalRuns (Adjacent (Near (valueRange * 0.5))) (drawn lo hi steps limit value) runs' ↔
        runs' = runs := by
  obtain ⟨runs, hruns, hmaximal⟩ := (stretches_cutsRuns (valueRange * 0.5)).maximal
    ((List.range (steps + 1)).map (sampleAt lo hi steps limit value)) 0
  rw [numbered_samples] at hmaximal
  refine ⟨runs, by rw [curve_eq_stretches hsteps hcount hf, hruns], fun runs' => ⟨fun h => ?_, ?_⟩⟩
  · exact h.unique hmaximal
  · rintro rfl
    exact hmaximal

/-- A line that leaves the limit once and jumps once. -/
def brokenLine (x : ℚ) : ℚ :=
  if x = 2 then 9 else if x < 4 then 0 else 3

theorem curve_maximal_brokenLine :
    (∃ runs, curve (fun p => (Except.ok (brokenLine p.x)).map Scalar.finite?) 0 5 2 5 (some 4) =
        .ok (runs.map (·.map Prod.snd)) ∧
      ∀ runs', MaximalRuns (Adjacent (Near (2 * 0.5)))
        (drawn 0 5 5 (some 4) fun i => brokenLine (abscissa 0 5 5 i)) runs' ↔ runs' = runs) ∧
    curve (fun p => (Except.ok (brokenLine p.x)).map Scalar.finite?) 0 5 2 5 (some 4) =
      .ok [[(0, 0), (1, 0)], [(3, 0)], [(4, 3), (5, 3)]] := by
  have hcount : Returns (Scalar.ofInt? (α := ℚ) (5 : ℕ)) := ⟨5, rfl⟩
  exact ⟨curve_maximal (by decide) hcount fun _ _ => rfl, by decide +kernel⟩

/-- A number of steps that is no double: no sample of the zero function is within the limit, so that there is
no run to return, and still the curve has no result. -/
theorem curve_steps_too_large :
    MaximalRuns (Adjacent (Near ((2.0 : Float) * 0.5)))
      (drawn 0.0 1.0 (Nat.pow 2 1024) (some (-1.0)) fun _ => (0.0 : Float)) [] ∧
    curve (fun _ => (Except.ok (0.0 : Float)).map Scalar.finite?) 0.0 1.0 2.0 (Nat.pow 2 1024 : ℕ) (some (-1.0)) =
      .error .integerTooLarge := by
  have hbeyond : withinLimit (some (-1.0)) (0.0 : Float) = false := by decide +kernel
  constructor
  · have hnone : drawn 0.0 1.0 (Nat.pow 2 1024) (some (-1.0)) (fun _ => (0.0 : Float)) = [] := by
      simp only [drawn, hbeyond, Bool.and_false, List.filter_false, List.map_nil]
    exact hnone ▸ .nil
  · have htotal : Scalar.ofInt? (α := Float) (Nat.pow 2 1024 : ℕ) = .error .integerTooLarge := by
      decide +kernel
    rw [curve, if_neg (by omega), htotal]
    rfl

end FieldPlot.Sampling
