import Mathlib.SetTheory.Cardinal.Finite
import FieldPlot.Proofs.Geometry.Divisions

/-! Where clipping ends. Its rounds are told by a relation without a bound, which leads from a segment to one
outcome at most. Doubles make so few segments that whatever has not ended within the bound never ends. -/

namespace FieldPlot.Rect

variable {α : Type}

section

variable [Scalar α] {rect : Rect α} {a b c d : Pixel α} {n m rounds : ℕ} {o o' : Option (Pixel α × Pixel α)}

/-- The rounds of a clipping to their end, with the number of moves. -/
inductive Clips (rect : Rect α) :
    Nat → Pixel α → Pixel α → Option (Pixel α × Pixel α) → Prop
  | visible {a b : Pixel α} (hround : rect.round a b = .ok .visible) :
    Clips rect 0 a b (some (a, b))
  | invisible {a b : Pixel α} (hround : rect.round a b = .ok .invisible) : Clips rect 0 a b none
  | moved {n : Nat} {a b c d : Pixel α} {o : Option (Pixel α × Pixel α)}
    (hround : rect.round a b = .ok (.moved c d)) (hrest : Clips rect n c d o) :
    Clips rect (n + 1) a b o

theorem Clips.clipWithin (h : Clips rect n a b o) (hn : n < rounds) : rect.clipWithin rounds a b = .ok o := by
  induction h generalizing rounds with
  | visible hround | invisible hround =>
    obtain ⟨rounds, rfl⟩ := Nat.exists_eq_succ_of_ne_zero hn.ne'
    rw [Rect.clipWithin, hround]
    rfl
  | moved hround _ ih =>
    obtain ⟨rounds, rfl⟩ := Nat.exists_eq_succ_of_ne_zero (Nat.ne_zero_of_lt hn)
    rw [Rect.clipWithin, hround]
    exact ih (Nat.lt_of_succ_lt_succ hn)

theorem exists_clips (h : rect.clipWithin rounds a b = .ok o) : ∃ n, Clips rect n a b o := by
  induction rounds generalizing a b with
  | zero => cases h
  | succ rounds ih =>
    obtain ⟨outcome, hround, h⟩ := bind_eq_ok.mp h
    cases outcome with
    | invisible => exact ⟨0, pure_eq_ok.mp h ▸ .invisible hround⟩
    | visible => exact ⟨0, pure_eq_ok.mp h ▸ .visible hround⟩
    | moved c d =>
      obtain ⟨n, hrest⟩ := ih h
      exact ⟨n + 1, .moved hround hrest⟩

theorem Clips.unique (h : Clips rect n a b o) (h' : Clips rect m a b o') : n = m ∧ o = o' := by
  induction h generalizing m o' with
  | visible hround =>
    cases h' with
    | visible => exact ⟨rfl, rfl⟩
    | invisible hother | moved hother => cases hround.symm.trans hother
  | invisible hround =>
    cases h' with
    | invisible => exact ⟨rfl, rfl⟩
    | visible hother | moved hother => cases hround.symm.trans hother
  | moved hround _ ih =>
    cases h' with
    | visible hother | invisible hother => cases hround.symm.trans hother
    | moved hother hrest =>
      cases hround.symm.trans hother
      obtain ⟨rfl, rfl⟩ := ih hrest
      exact ⟨rfl, rfl⟩

/-- On its way a clipping has every number of moves before it once. -/
theorem Clips.exists_before (h : Clips rect n a b o) : ∀ k ≤ n, ∃ c d, Clips rect k c d o := by
  induction h with
  | visible hround =>
    intro k hk
    obtain rfl := Nat.le_zero.mp hk
    exact ⟨_, _, .visible hround⟩
  | invisible hround =>
    intro k hk
    obtain rfl := Nat.le_zero.mp hk
    exact ⟨_, _, .invisible hround⟩
  | moved hround hrest ih =>
    intro k hk
    rcases Nat.le_succ_iff.mp hk with hk | rfl
    · exact ih k hk
    · exact ⟨_, _, .moved hround hrest⟩

/-- No segment comes back on the way of a clipping that ends: its number of moves would be two numbers. -/
theorem Clips.lt_card [Finite (Pixel α × Pixel α)] (h : Clips rect n a b o) :
    n < Nat.card (Pixel α × Pixel α) := by
  choose first second hclips using h.exists_before
  let segmentAt (k : Fin (n + 1)) : Pixel α × Pixel α := (first k k.is_le, second k k.is_le)
  have hinjective : Function.Injective segmentAt := by
    intro k l hkl
    obtain ⟨hfirst, hsecond⟩ := Prod.mk.inj hkl
    have hl := hclips l l.is_le
    rw [← hfirst, ← hsecond] at hl
    exact Fin.ext ((hclips k k.is_le).unique hl).1
  have hcard := Nat.card_le_card_of_injective segmentAt hinjective
  rwa [Nat.card_fin] at hcard

end

/-! ### Doubles -/

/-- The bits of the four coordinates. -/
def bitsOf (s : Pixel Float × Pixel Float) : (Fin (2 ^ 64) × Fin (2 ^ 64)) × Fin (2 ^ 64) × Fin (2 ^ 64) :=
  ((s.1.x.toModel.toBits.toFin, s.1.y.toModel.toBits.toFin), s.2.x.toModel.toBits.toFin, s.2.y.toModel.toBits.toFin)

theorem eq_of_toFin_eq {a b : Float} (h : a.toModel.toBits.toFin = b.toModel.toBits.toFin) : a = b := by
  obtain ⟨⟨bits, hbits⟩⟩ := a
  obtain ⟨⟨bits', hbits'⟩⟩ := b
  obtain rfl : bits = bits' := UInt64.toFin_inj.mp h
  rfl

theorem bitsOf_injective : Function.Injective bitsOf := by
  rintro ⟨⟨x, y⟩, z, w⟩ ⟨⟨x', y'⟩, z', w'⟩ h
  simp only [bitsOf, Prod.mk.injEq] at h
  obtain ⟨⟨hx, hy⟩, hz, hw⟩ := h
  rw [eq_of_toFin_eq hx, eq_of_toFin_eq hy, eq_of_toFin_eq hz, eq_of_toFin_eq hw]

instance : Finite (Pixel Float × Pixel Float) :=
  .of_injective bitsOf bitsOf_injective

theorem card_segments_le : Nat.card (Pixel Float × Pixel Float) ≤ roundLimit :=
  calc Nat.card (Pixel Float × Pixel Float)
    _ ≤ Nat.card ((Fin (2 ^ 64) × Fin (2 ^ 64)) × Fin (2 ^ 64) × Fin (2 ^ 64)) :=
      Nat.card_le_card_of_injective bitsOf bitsOf_injective
    _ = 2 ^ 64 * 2 ^ 64 * (2 ^ 64 * 2 ^ 64) := by simp only [Nat.card_prod, Nat.card_fin]
    _ ≤ roundLimit := by decide +kernel

variable {rect : Rect Float} {a b : Pixel Float} {o : Option (Pixel Float × Pixel Float)}

theorem clipWithin_eq_ok_iff : rect.clipWithin roundLimit a b = .ok o ↔ ∃ n, Clips rect n a b o :=
  ⟨exists_clips, fun ⟨_, h⟩ => h.clipWithin (h.lt_card.trans_le card_segments_le)⟩

/-- A segment of doubles is clipped as its rounds tell; one with an end that is not finite has nothing visible. -/
theorem clip_eq_ok_iff :
    rect.clip a b = .ok o ↔ if a.isFinite && b.isFinite then ∃ n, Clips rect n a b o else o = none := by
  unfold clip
  split
  · exact clipWithin_eq_ok_iff
  · exact ⟨fun h => (Except.ok.inj h).symm, fun h => congrArg Except.ok h.symm⟩

theorem clip_eq_endlessClipping_iff :
    rect.clip a b = .error .endlessClipping ↔ (a.isFinite && b.isFinite) = true ∧ ∀ n o, ¬Clips rect n a b o := by
  constructor
  · intro hendless
    have hfinite : (a.isFinite && b.isFinite) = true := by
      by_contra hinfinite
      rw [clip, if_neg hinfinite] at hendless
      cases hendless
    refine ⟨hfinite, fun n o hclips => ?_⟩
    have ho : rect.clip a b = .ok o := clip_eq_ok_iff.mpr (by rw [if_pos hfinite]; exact ⟨n, hclips⟩)
    rw [hendless] at ho
    cases ho
  · rintro ⟨hfinite, hnone⟩
    refine (clip_cases rect a b).resolve_left fun ⟨o, ho⟩ => ?_
    have hclips := clip_eq_ok_iff.mp ho
    rw [if_pos hfinite] at hclips
    obtain ⟨n, hclips⟩ := hclips
    exact hnone n o hclips

/-- A clipping that two rounds bring back to where it was does not end. -/
theorem not_clips_of_return {c d : Pixel Float} (hthere : rect.round a b = .ok (.moved c d))
    (hback : rect.round c d = .ok (.moved a b)) (n : ℕ) (o : Option (Pixel Float × Pixel Float)) :
    ¬Clips rect n a b o := by
  induction n using Nat.strong_induction_on with
  | h n ih =>
    intro h
    cases h with
    | visible hround | invisible hround => cases hthere.symm.trans hround
    | moved hround hrest =>
      cases hthere.symm.trans hround
      cases hrest with
      | visible hround | invisible hround => cases hback.symm.trans hround
      | moved hround hrest =>
        cases hback.symm.trans hround
        exact ih _ (by omega) hrest

set_option maxRecDepth 10000 in
/-- A segment that grazes a corner. Its upper end goes to and fro between the side of the canvas and its bottom. -/
theorem clip_grazing_corner : (⟨0, 0, 800, 600⟩ : Rect Float).clip ⟨.ofBits 9342783, 599.9999999363844⟩
    ⟨0, 600.0000000000002⟩ = .error .endlessClipping := by
  have hthere : (⟨0, 0, 800, 600⟩ : Rect Float).round ⟨.ofBits 9342783, 599.9999999363844⟩ ⟨0, 600.0000000000002⟩ =
      .ok (.moved ⟨.ofBits 9342783, 599.9999999363844⟩ ⟨-.ofBits 6376568, 600⟩) := rfl
  have hback : (⟨0, 0, 800, 600⟩ : Rect Float).round ⟨.ofBits 9342783, 599.9999999363844⟩ ⟨-.ofBits 6376568, 600⟩ =
      .ok (.moved ⟨.ofBits 9342783, 599.9999999363844⟩ ⟨0, 600.0000000000002⟩) := rfl
  exact clip_eq_endlessClipping_iff.mpr ⟨by decide +kernel, not_clips_of_return hthere hback⟩

end FieldPlot.Rect
