import FieldPlot.Proofs.Geometry.Clipping
import FieldPlot.Proofs.Scalar.Lawful

/-! Visible parts. Any segment has a visible part or none, and a visible part lies in the rectangle,
whatever the segment it has been cut from. -/

namespace FieldPlot.Rect

variable {α : Type}

section

variable [Scalar α] {rect : Rect α} {a b p q : Pixel α}

/-- A round that finds a segment visible has looked at both of its ends. -/
theorem inside_of_round_visible (h : rect.round a b = .ok .visible) :
    Region.of rect a = .inside ∧ Region.of rect b = .inside := by
  unfold round at h
  dsimp only at h
  split at h
  · next hinside => simpa using hinside
  · split at h
    · cases pure_eq_ok.mp h
    · split at h
      all_goals
        obtain ⟨_, -, h⟩ := bind_eq_ok.mp h
        cases pure_eq_ok.mp h

theorem inside_of_clipWithin {rounds : Nat} (h : rect.clipWithin rounds a b = .ok (some (p, q))) :
    Region.of rect p = .inside ∧ Region.of rect q = .inside := by
  induction rounds generalizing a b with
  | zero => cases h
  | succ rounds ih =>
    obtain ⟨outcome, hround, h⟩ := bind_eq_ok.mp h
    cases outcome with
    | invisible => cases h
    | visible =>
      obtain ⟨rfl, rfl⟩ := Prod.mk.inj (Option.some.inj (pure_eq_ok.mp h))
      exact inside_of_round_visible hround
    | moved c d => exact ih h

theorem inside_of_clip (h : rect.clip a b = .ok (some (p, q))) :
    Region.of rect p = .inside ∧ Region.of rect q = .inside := by
  unfold clip at h
  split at h
  · exact inside_of_clipWithin h
  · cases h

end

section

variable [ExactScalar α] {rect : Rect α} {a b p q : Pixel α}

theorem clip_covers (h : rect.clip a b = .ok (some (p, q))) : rect.Covers p ∧ rect.Covers q := by
  obtain ⟨hp, hq⟩ := inside_of_clip h
  exact ⟨of_eq_inside_iff.mp hp, of_eq_inside_iff.mp hq⟩

theorem clip_returns (hx : rect.left ≤ rect.right) (hy : rect.top ≤ rect.bottom) (a b : Pixel α) :
    Returns (rect.clip a b) := by
  unfold clip
  split
  · obtain ⟨n, hn, o, hclips⟩ := endsWithin_four hx hy a b
    exact ⟨o, hclips.clipWithin (Nat.lt_of_le_of_lt hn (by decide))⟩
  · exact .ok none

end

variable [LawfulScalar α] {rect : Rect α} {a b : Pixel α}

theorem clip_eq_clipWithin (rect : Rect α) (a b : Pixel α) : rect.clip a b = rect.clipWithin roundLimit a b := by
  simp [clip, Pixel.isFinite, LawfulScalar.isFinite_eq]

theorem clip_of_covers (ha : rect.Covers a) (hb : rect.Covers b) : rect.clip a b = .ok (some (a, b)) := by
  rw [clip_eq_clipWithin]
  exact (Clips.visible (round_visible ha hb)).clipWithin (by decide)

theorem clip_of_beyond (hx : rect.left ≤ rect.right) (hy : rect.top ≤ rect.bottom) {side : Side}
    (ha : 0 < rect.gap side a) (hb : 0 < rect.gap side b) : rect.clip a b = .ok none := by
  rw [clip_eq_clipWithin]
  exact (Clips.invisible (round_invisible hx hy ha hb)).clipWithin (by decide)

end FieldPlot.Rect
