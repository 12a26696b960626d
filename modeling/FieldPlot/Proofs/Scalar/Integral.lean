import FieldPlot.Proofs.Scalar.Real

/-! Exact numbers whose floors and roundings are the integers that they are named for: the floor is the largest
integer that is not above a number, and what a number is rounded to lies at most half a unit of its place away. -/

namespace FieldPlot

class IntegralScalar (α : Type) extends LawfulScalar α where
  le_floor_iff (n : ℤ) (a : α) : n ≤ Scalar.floor a ↔ (n : α) ≤ a
  abs_roundAt_sub_le (places : ℕ) (a : α) : |(Scalar.roundAt places a : α) - a * 10 ^ places| ≤ 1 / 2

section

variable {K : Type} [Field K] [LinearOrder K] [IsStrictOrderedRing K] {a : K} {m n : ℤ}

/-- Between a number and an integer that is at most half a unit away there is no other integer. -/
theorem le_of_near (hnear : |(n : K) - a| ≤ 1 / 2) (h : (m : K) ≤ a) : m ≤ n := by
  have hlt : ((m - 1 : ℤ) : K) < n := by
    push_cast
    linarith [(abs_le.mp hnear).1]
  exact Int.sub_one_lt_iff.mp (Int.cast_lt.mp hlt)

theorem ge_of_near (hnear : |(n : K) - a| ≤ 1 / 2) (h : a ≤ m) : n ≤ m := by
  have hlt : (n : K) < ((m + 1 : ℤ) : K) := by
    push_cast
    linarith [(abs_le.mp hnear).2]
  exact Int.lt_add_one_iff.mp (Int.cast_lt.mp hlt)

end

/-- Halfway between two integers the even one lies half a unit away, whichever of them it is. -/
theorem abs_even_sub_le {K : Type} [Field K] [LinearOrder K] [IsStrictOrderedRing K] [FloorRing K] {a : K}
    (ha : Int.fract a = 1 / 2) : |((2 * ((⌊a⌋ + 1) / 2) : ℤ) : K) - a| ≤ 1 / 2 := by
  have hsplit : a = (⌊a⌋ : K) + 1 / 2 := by rw [← ha, Int.floor_add_fract]
  have heven : 2 * ((⌊a⌋ + 1) / 2) = ⌊a⌋ ∨ 2 * ((⌊a⌋ + 1) / 2) = ⌊a⌋ + 1 := by omega
  rw [abs_le]
  rcases heven with heven | heven <;> rw [heven] <;> push_cast <;> constructor <;> linarith

theorem abs_nearest_sub_le {K : Type} [Field K] [LinearOrder K] [IsStrictOrderedRing K] [FloorRing K] (a : K) :
    |((if Int.fract a = 1 / 2 then 2 * ((⌊a⌋ + 1) / 2) else round a : ℤ) : K) - a| ≤ 1 / 2 := by
  split
  · next htie => exact abs_even_sub_le htie
  · rw [abs_sub_comm]
    exact abs_sub_round a

theorem rat_roundAt_near (places : ℕ) (a : ℚ) : |(Scalar.roundAt places a : ℚ) - a * 10 ^ places| ≤ 1 / 2 :=
  abs_nearest_sub_le _

theorem real_roundAt_near (places : ℕ) (a : ℝ) : |(Scalar.roundAt places a : ℝ) - a * 10 ^ places| ≤ 1 / 2 :=
  abs_nearest_sub_le _

instance : IntegralScalar ℚ where
  le_floor_iff := @Int.le_floor ℚ _ _ _
  abs_roundAt_sub_le := rat_roundAt_near

noncomputable instance : IntegralScalar ℝ where
  le_floor_iff := @Int.le_floor ℝ _ _ _
  abs_roundAt_sub_le := real_roundAt_near

namespace Scalar

variable {α : Type} [IntegralScalar α] {a : α} {m n : ℤ}

theorem whole_eq (f : α → ℤ) (a : α) : whole f a = .ok (f a) := by
  rw [whole, LawfulScalar.isFinite_eq]
  rfl

/-- Rounding crosses no integer. -/
theorem roundAt_mem (hm : (m : α) ≤ a) (hn : a ≤ n) : m ≤ roundAt 0 a ∧ roundAt 0 a ≤ n := by
  have hnear := IntegralScalar.abs_roundAt_sub_le 0 a
  rw [pow_zero, mul_one] at hnear
  exact ⟨le_of_near hnear hm, ge_of_near hnear hn⟩

theorem roundAt_intCast (n : ℤ) : roundAt 0 (n : α) = n :=
  le_antisymm (roundAt_mem le_rfl le_rfl).2 (roundAt_mem le_rfl le_rfl).1

end Scalar

end FieldPlot
