import FieldPlot.Proofs.Scalar.Lawful
import FieldPlot.Geometry.Projection

/-! Rotations. A rotated point is the point turned by both angles, and of exact numbers every angle has a cosine and a
sine. Where the squares of these add up to 1 a rotation keeps the distance from the origin. -/

namespace FieldPlot.Point

section

variable {α : Type} [Scalar α]

def turnedX (angle : α) (p : Point α) : Point α :=
  ⟨p.x, p.y * Scalar.cos angle - p.z * Scalar.sin angle, p.y * Scalar.sin angle + p.z * Scalar.cos angle⟩

def turnedZ (angle : α) (p : Point α) : Point α :=
  ⟨p.x * Scalar.cos angle - p.y * Scalar.sin angle, p.x * Scalar.sin angle + p.y * Scalar.cos angle, p.z⟩

def turned (elevation azimuth : α) (p : Point α) : Point α :=
  (p.turnedX elevation).turnedZ azimuth

theorem eq_turned_of_rotated {elevation azimuth : α} {p q : Point α} (h : p.rotated elevation azimuth = .ok q) :
    q = p.turned elevation azimuth := by
  have hturn {angle : α} {c : α × α} (h : Scalar.turn angle = .ok c) : c = (Scalar.cos angle, Scalar.sin angle) := by
    unfold Scalar.turn at h
    split at h <;> cases h
    rfl
  obtain ⟨r, hr, h⟩ := bind_eq_ok.mp h
  obtain ⟨c, hc, hr⟩ := bind_eq_ok.mp hr
  obtain ⟨d, hd, h⟩ := bind_eq_ok.mp h
  obtain rfl := hturn hc
  obtain rfl := hturn hd
  obtain rfl := pure_eq_ok.mp hr
  exact (pure_eq_ok.mp h).symm

end

variable {α : Type} [LawfulScalar α]

def normSq (p : Point α) : α :=
  p.x ^ 2 + p.y ^ 2 + p.z ^ 2

theorem rotated_eq (elevation azimuth : α) (p : Point α) :
    p.rotated elevation azimuth = .ok (p.turned elevation azimuth) := by
  have hturn (angle : α) : Scalar.turn angle = .ok (Scalar.cos angle, Scalar.sin angle) := by
    rw [Scalar.turn, LawfulScalar.isFinite_eq]
    rfl
  rw [rotated, rotateX, hturn, ok_bind]
  show rotateZ azimuth (p.turnedX elevation) = _
  rw [rotateZ, hturn]
  rfl

variable {elevation azimuth : α} {p : Point α}

theorem turnedX_normSq (hangle : Scalar.cos elevation ^ 2 + Scalar.sin elevation ^ 2 = 1) :
    (p.turnedX elevation).normSq = p.normSq := by
  simp only [normSq, turnedX]
  linear_combination (p.y ^ 2 + p.z ^ 2) * hangle

theorem turnedZ_normSq (hangle : Scalar.cos azimuth ^ 2 + Scalar.sin azimuth ^ 2 = 1) :
    (p.turnedZ azimuth).normSq = p.normSq := by
  simp only [normSq, turnedZ]
  linear_combination (p.x ^ 2 + p.y ^ 2) * hangle

theorem sq_turned_y_le (hangle : ∀ a : α, Scalar.cos a ^ 2 + Scalar.sin a ^ 2 = 1) :
    (p.turned elevation azimuth).y ^ 2 ≤ p.normSq := by
  have hnorm : (p.turned elevation azimuth).normSq = p.normSq :=
    (turnedZ_normSq (hangle azimuth)).trans (turnedX_normSq (hangle elevation))
  rw [← hnorm, normSq]
  linarith [sq_nonneg (p.turned elevation azimuth).x, sq_nonneg (p.turned elevation azimuth).z]

end FieldPlot.Point
