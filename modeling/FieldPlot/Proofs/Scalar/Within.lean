import FieldPlot.Proofs.Scalar.Rounded

/-! The size of results. A result is as large as the exact one, or up to twice as large for the rounding; that it stays
far below the largest number keeps it finite. -/

namespace FieldPlot

open HasValue (value)

/-- A finite number of at most that power of two. -/
structure Scalar.Within {α K : Type} [Scalar α] [Field K] [LinearOrder K] [HasValue α K] (a : α) (i : ℤ) : Prop where
  finite : Scalar.isFinite a = true
  abs_le : |value a| ≤ 2 ^ i

open Scalar (Within)

section

variable {α K : Type} [Scalar α] [LinearOrder K] [HasValue α K] {a b r : α} {x : K}

/-- Rounding leaves a number between the scalars that it was between. -/
theorem RoundsTo.mem_uIcc (h : RoundsTo r x) (ha : Scalar.isFinite a = true) (hb : Scalar.isFinite b = true)
    (hx : x ∈ Set.uIcc (value a) (value b)) : Scalar.isFinite r = true ∧ value r ∈ Set.uIcc (value a) (value b) := by
  rcases le_total (value a) (value b) with hab | hba
  · rw [Set.uIcc_of_le hab] at hx ⊢
    have hr := h.isFinite ha hb hx.1 hx.2
    exact ⟨hr, h.ge hr ha hx.1, h.le hr hb hx.2⟩
  · rw [Set.uIcc_of_ge hba] at hx ⊢
    have hr := h.isFinite hb ha hx.1 hx.2
    exact ⟨hr, h.ge hr hb hx.1, h.le hr ha hx.2⟩

end

section

variable {K : Type} [Field K] [LinearOrder K] [IsStrictOrderedRing K] {x y : K} {i j : ℤ}

theorem two_zpow_le (h : i ≤ j) : (2 : K) ^ i ≤ 2 ^ j :=
  zpow_le_zpow_right₀ one_le_two h

/-- Between zero and a number there are those of its sign that are not larger. -/
theorem mem_uIcc_zero (hsign : 0 ≤ x * y) (habs : |x| ≤ |y|) : x ∈ Set.uIcc 0 y := by
  rcases le_total 0 y with hy | hy
  · rw [Set.uIcc_of_le hy]
    rw [abs_of_nonneg hy] at habs
    refine ⟨?_, (le_abs_self x).trans habs⟩
    rcases hy.eq_or_lt with rfl | hy
    · exact (abs_nonpos_iff.mp habs).ge
    · exact nonneg_of_mul_nonneg_left hsign hy
  · rw [Set.uIcc_of_ge hy]
    rw [abs_of_nonpos hy] at habs
    refine ⟨neg_le_neg_iff.mp ((neg_le_abs x).trans habs), ?_⟩
    rcases hy.eq_or_lt with rfl | hy
    · exact (abs_nonpos_iff.mp (habs.trans_eq neg_zero)).le
    · exact nonpos_of_mul_nonneg_left hsign hy

variable {α : Type} [Scalar α] [HasValue α K] {a : α}

theorem Scalar.Within.of_value_zero (ha : isFinite a = true) (h : value a = 0) : Within a i :=
  ⟨ha, by rw [h, abs_zero]; exact zpow_nonneg zero_le_two i⟩

theorem Scalar.Within.mono (h : Within a i) (hij : i ≤ j) : Within a j :=
  ⟨h.finite, h.abs_le.trans (two_zpow_le hij)⟩

end

variable {α K : Type} [Scalar α] [Field K] [LinearOrder K] [IsStrictOrderedRing K] [HasValue α K]
  [RoundedScalar α K] {a b r : α} {x y : K} {i j : ℤ}

include K in
theorem Scalar.isUndefined_of_finite (h : isFinite a = true) : isUndefined a = false :=
  (StrictlyOrderedScalar.defined_of_le ((ValuedScalar.le_iff h h).mpr le_rfl)).1

theorem RoundsTo.abs_value_le (h : RoundsTo r x) (hb : Scalar.isFinite b = true) (hx : |x| ≤ value b) :
    Scalar.isFinite r = true ∧ |value r| ≤ value b := by
  obtain ⟨hfinite, hneg⟩ := ValuedScalar.neg hb
  obtain ⟨hlo, hhi⟩ := abs_le.mp hx
  rw [← hneg] at hlo
  have hr := h.isFinite hfinite hb hlo hhi
  exact ⟨hr, abs_le.mpr ⟨hneg.symm.trans_le (h.ge hr hfinite hlo), h.le hr hb hhi⟩⟩

theorem RoundsTo.abs_le_above (h : RoundsTo r x) (hx : |x| ≤ y) (hy : y ≤ 3 * 2 ^ (1022 : ℤ)) :
    Scalar.isFinite r = true ∧ |value r| ≤ y * (1 + 2 ^ (-52 : ℤ)) + 2 ^ (-1074 : ℤ) := by
  obtain ⟨b, hb, hbelow, habove⟩ := RoundedScalar.exists_above (α := α) ((abs_nonneg x).trans hx) hy
  obtain ⟨hr, hle⟩ := h.abs_value_le hb (hx.trans hbelow)
  exact ⟨hr, hle.trans habove⟩

theorem RoundsTo.within (h : RoundsTo r x) (hx : |x| ≤ 2 ^ i) (hlo : -1073 ≤ i) (hhi : i ≤ 1022) :
    Within r (i + 1) := by
  have hpos : (0 : K) < 2 ^ (1022 : ℤ) := zpow_pos two_pos _
  have hpower : (2 : K) ^ i ≤ 2 ^ (1022 : ℤ) := two_zpow_le hhi
  obtain ⟨hr, hle⟩ := h.abs_le_above hx (hpower.trans (le_mul_of_one_le_left hpos.le (by norm_num)))
  -- The two parts of the rounding are half of the power at most.
  have hrelative : (2 : K) ^ i * 2 ^ (-52 : ℤ) ≤ 2 ^ (i - 1) := by
    rw [← zpow_add₀ two_ne_zero]
    exact two_zpow_le (by omega)
  have habsolute : (2 : K) ^ (-1074 : ℤ) ≤ 2 ^ (i - 1) := two_zpow_le (by omega)
  have hhalves : (2 : K) ^ i = 2 ^ (i - 1) + 2 ^ (i - 1) := by
    rw [← two_mul, ← zpow_one_add₀ two_ne_zero, add_sub_cancel]
  refine ⟨hr, hle.trans ?_⟩
  rw [zpow_add_one₀ two_ne_zero]
  linarith

namespace Scalar.Within

theorem add (ha : Within a i) (hb : Within b i) (hlo : -1074 ≤ i) (hhi : i ≤ 1021) : Within (a + b) (i + 2) := by
  have hsum : |value a + value b| ≤ 2 ^ (i + 1) := by
    rw [zpow_add_one₀ two_ne_zero]
    linarith [abs_add_le (value a) (value b), ha.abs_le, hb.abs_le]
  exact add_assoc i 1 1 ▸ (RoundedScalar.add_rounds ha.finite hb.finite).within hsum (by omega) (by omega)

theorem sub (ha : Within a i) (hb : Within b i) (hlo : -1074 ≤ i) (hhi : i ≤ 1021) : Within (a - b) (i + 2) := by
  have hdifference : |value a - value b| ≤ 2 ^ (i + 1) := by
    rw [zpow_add_one₀ two_ne_zero]
    linarith [abs_sub (value a) (value b), ha.abs_le, hb.abs_le]
  exact add_assoc i 1 1 ▸ (RoundedScalar.sub_rounds ha.finite hb.finite).within hdifference (by omega) (by omega)

theorem mul (ha : Within a i) (hb : Within b j) (hlo : -1073 ≤ i + j) (hhi : i + j ≤ 1022) :
    Within (a * b) (i + j + 1) := by
  refine (RoundedScalar.mul_rounds ha.finite hb.finite).within ?_ hlo hhi
  rw [abs_mul, zpow_add₀ two_ne_zero]
  exact mul_le_mul ha.abs_le hb.abs_le (abs_nonneg _) (zpow_nonneg zero_le_two i)

theorem div_four (ha : Within a i) (hlo : -1073 ≤ i) (hhi : i ≤ 1022) : Within (a / 4.0) (i + 1) := by
  obtain ⟨hfour, hvalue⟩ := RoundedScalar.four (α := α)
  have hne : value (4.0 : α) ≠ 0 := by
    rw [hvalue]
    norm_num
  refine (RoundedScalar.div_rounds ha.finite hfour hne).within ?_ hlo hhi
  rw [hvalue, abs_div, abs_of_pos (by norm_num : (0 : K) < 4)]
  exact (div_le_self (abs_nonneg _) (by norm_num)).trans ha.abs_le

end Scalar.Within

/-- What a quotient is too large by counts little when it is multiplied with the divisor again. -/
theorem abs_div_mul_le (hbounded : Scalar.isBounded α = true) (ha : Scalar.isFinite a = true)
    (hb : Scalar.isFinite b = true) (hne : value b ≠ 0) (hquotient : Scalar.isFinite (a / b) = true) :
    |value (a / b)| * |value b| ≤ 4 / 3 * |value a| + 2 ^ (-50 : ℤ) := by
  have hrounds := RoundedScalar.div_rounds ha hb hne
  have hpos : 0 < |value b| := abs_pos.mpr hne
  have hcancel : |value a / value b| * |value b| = |value a| := by
    rw [abs_div, div_mul_cancel₀ _ hpos.ne']
  have htiny : (0 : K) < 2 ^ (-50 : ℤ) := zpow_pos two_pos _
  have hsize := RoundedScalar.abs_value_lt hbounded hb
  rcases le_or_gt |value a / value b| (3 * 2 ^ (1022 : ℤ)) with hle | hlt
  · have hunit : (1 : K) + 2 ^ (-52 : ℤ) ≤ 4 / 3 := by norm_num
    have hrest : (2 : K) ^ (-1074 : ℤ) * 2 ^ (1024 : ℤ) = 2 ^ (-50 : ℤ) := (zpow_add₀ two_ne_zero _ _).symm
    calc |value (a / b)| * |value b|
        ≤ (|value a / value b| * (1 + 2 ^ (-52 : ℤ)) + 2 ^ (-1074 : ℤ)) * |value b| :=
          mul_le_mul_of_nonneg_right (hrounds.abs_le_above le_rfl hle).2 hpos.le
      _ = |value a| * (1 + 2 ^ (-52 : ℤ)) + 2 ^ (-1074 : ℤ) * |value b| := by rw [← hcancel]; ring
      _ ≤ |value a| * (4 / 3) + 2 ^ (-1074 : ℤ) * 2 ^ (1024 : ℤ) :=
          add_le_add (mul_le_mul_of_nonneg_left hunit (abs_nonneg _))
            (mul_le_mul_of_nonneg_left hsize.le (zpow_nonneg zero_le_two _))
      _ = 4 / 3 * |value a| + 2 ^ (-50 : ℤ) := by rw [hrest, mul_comm]
  · -- No finite quotient is larger than the exact one by a third.
    have hlarge := RoundedScalar.abs_value_lt hbounded hquotient
    have hquarter : (2 : K) ^ (1024 : ℤ) = 2 ^ (2 : ℤ) * 2 ^ (1022 : ℤ) := zpow_add₀ two_ne_zero 2 1022
    have hfour : (2 : K) ^ (2 : ℤ) = 4 := by norm_num
    rw [hquarter, hfour] at hlarge
    have hquotient : |value (a / b)| ≤ 4 / 3 * |value a / value b| := by linarith
    calc |value (a / b)| * |value b| ≤ 4 / 3 * |value a / value b| * |value b| :=
          mul_le_mul_of_nonneg_right hquotient hpos.le
      _ = 4 / 3 * |value a| := by rw [mul_assoc, hcancel]
      _ ≤ 4 / 3 * |value a| + 2 ^ (-50 : ℤ) := le_add_of_nonneg_right htiny.le

end FieldPlot
