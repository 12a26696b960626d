import FieldPlot.Proofs.Outcome
import FieldPlot.Proofs.Scalar.Difference
import FieldPlot.Geometry.Clip

/-! The divisions of a clipping. A divisor is the difference of the two ends in one coordinate, and it is zero
only where no boundary line separates them. So whatever the rectangle, and whatever rounding has made of the
ends on the way, none of the divisions is by zero, and all that can keep a clipping from an outcome is that it
goes on for ever. -/

namespace FieldPlot

variable {α : Type} [Scalar α] [ResolvingScalar α]

theorem Band.of_congr {a b : α} (h : (b - a == 0.0) = true) (lo hi : α) : Band.of a lo hi = Band.of b lo hi := by
  unfold Band.of
  simp only [(ResolvingScalar.alike_of_sub_eq_zero h lo).1, (ResolvingScalar.alike_of_sub_eq_zero h hi).2]

theorem Scalar.divide_of_band_ne {a b lo hi : α} (h : Band.of a lo hi ≠ Band.of b lo hi) (c : α) :
    Returns (divide c (b - a)) := by
  unfold divide
  split
  · next hzero => exact absurd (Band.of_congr hzero lo hi) h
  · exact .ok _

theorem Region.apart_of_not_sharesSide {s t : Region} (h : s.sharesSide t = false) :
    (s.row ≠ .within → s.row ≠ t.row) ∧ (s.column ≠ .within → s.column ≠ t.column) := by
  unfold sharesSide at h
  obtain ⟨hcolumn, hrow⟩ := Bool.or_eq_false_iff.mp h
  exact ⟨by simpa using hrow, by simpa using hcolumn⟩

namespace Rect

variable {rect : Rect α} {a b : Pixel α} {region : Region}

/-- A region beyond a boundary line is reached if that line separates the ends. -/
theorem cross_returns (hout : region ≠ .inside)
    (hrow : region.row ≠ .within → (Region.of rect a).row ≠ (Region.of rect b).row)
    (hcolumn : region.column ≠ .within → (Region.of rect a).column ≠ (Region.of rect b).column) :
    Returns (rect.cross region a b) := by
  obtain ⟨column, row⟩ := region
  have hcrossRow (y : α) (h : row ≠ .within) : Returns (crossRow a b y) :=
    (Scalar.divide_of_band_ne (hrow h) _).bind fun _ _ => .ok _
  have hcrossColumn (x : α) (h : column ≠ .within) : Returns (crossColumn a b x) :=
    (Scalar.divide_of_band_ne (hcolumn h) _).bind fun _ _ => .ok _
  cases row with
  | before => exact hcrossRow _ (by decide)
  | after => exact hcrossRow _ (by decide)
  | within =>
    cases column with
    | before => exact hcrossColumn _ (by decide)
    | after => exact hcrossColumn _ (by decide)
    | within => exact absurd rfl hout

theorem round_returns (rect : Rect α) (a b : Pixel α) : Returns (rect.round a b) := by
  unfold round
  dsimp only
  split
  · exact .ok _
  next hinside =>
  split
  · exact .ok _
  next hshares =>
  have hapart := Region.apart_of_not_sharesSide (Bool.not_eq_true _ ▸ hshares)
  split
  · next ha =>
    refine (cross_returns (fun hb => hinside (by simp [ha, hb])) (fun hrow => ?_) fun hcolumn => ?_).bind
      fun _ _ => .ok _
    · exact ha ▸ hrow.symm
    · exact ha ▸ hcolumn.symm
  · next ha =>
    exact (cross_returns (fun he => ha (by simpa using he)) hapart.1 hapart.2).bind fun _ _ => .ok _

/-- Clipping fails in no other way than that it does not end. -/
theorem clipWithin_cases (rect : Rect α) (rounds : Nat) (a b : Pixel α) :
    Returns (rect.clipWithin rounds a b) ∨ rect.clipWithin rounds a b = .error .endlessClipping := by
  induction rounds generalizing a b with
  | zero => exact .inr rfl
  | succ rounds ih =>
    obtain ⟨outcome, hround⟩ := round_returns rect a b
    rw [clipWithin, hround, ok_bind]
    cases outcome with
    | invisible => exact .inl (.ok _)
    | visible => exact .inl (.ok _)
    | moved c d => exact ih c d

theorem clip_cases (rect : Rect α) (a b : Pixel α) :
    Returns (rect.clip a b) ∨ rect.clip a b = .error .endlessClipping := by
  unfold clip
  split
  · exact clipWithin_cases rect roundLimit a b
  · exact .inl (.ok none)

end Rect

end FieldPlot
