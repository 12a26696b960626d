import FieldPlot.Proofs.Scalar.Integral
import FieldPlot.Sampling.Spacing
import Mathlib.Analysis.SpecialFunctions.Log.Base

/-! Spacings that read well. Both sorts of grid lines stand a short number of times a power of ten apart: 1, 2 or 5
times. How dense they are is a matter of the leading figure of a length alone, which lies between 1 and 10. -/

namespace FieldPlot.Sampling

/-- 1, 2 and 5 times a power of ten. -/
inductive Nice : ℝ → Prop
  | one (n : ℤ) : Nice (10 ^ n)
  | two (n : ℤ) : Nice (2 * 10 ^ n)
  | five (n : ℤ) : Nice (5 * 10 ^ n)

/-- The multiples of a spacing between two bounds. -/
def multiplesWithin (spacing lo hi : ℝ) : Set ℝ :=
  {a | (∃ k : ℤ, a = k * spacing) ∧ a ∈ Set.Icc lo hi}

theorem nice_ten_mul (n : ℤ) : Nice (10 * 10 ^ n) := by
  rw [mul_comm, ← zpow_add_one₀ (by norm_num)]
  exact .one _

theorem nice_div_five (n : ℤ) : Nice (10 ^ n / 5) := by
  have hdouble : (10 : ℝ) ^ n / 5 = 2 * 10 ^ (n - 1) := by
    rw [zpow_sub_one₀ (by norm_num)]
    ring
  exact hdouble ▸ .two _

theorem nice_div_two (n : ℤ) : Nice (10 ^ n / 2) := by
  have hfivefold : (10 : ℝ) ^ n / 2 = 5 * 10 ^ (n - 1) := by
    rw [zpow_sub_one₀ (by norm_num)]
    ring
  exact hfivefold ▸ .five _

/-! ### Leading figures -/

variable {a : ℝ}

theorem decade_eq (ha : 0 < a) : Scalar.decade a = .ok (10 ^ Int.log 10 a) := by
  have hpos : (0.0 : ℝ) < a := Scalar.literal_zero.trans_lt ha
  have hfloor : Scalar.floor (Scalar.log10 a) = Int.log 10 a := Real.floor_logb_natCast (b := 10) ha.le
  rw [Scalar.decade, if_pos hpos, Scalar.floor?, Scalar.whole_eq, ok_bind, hfloor, LawfulScalar.tenTo_eq]
  rfl

/-- Divided by its decade, a number shows its leading figure before the point. -/
theorem exists_leading (ha : 0 < a) : ∃ (n : ℤ) (leading : ℝ), Scalar.decade a = .ok (10 ^ n) ∧
    Scalar.divide a (10 ^ n) = .ok leading ∧ a = leading * 10 ^ n ∧ 1 ≤ leading ∧ leading < 10 := by
  have hunit : (0 : ℝ) < 10 ^ Int.log 10 a := by positivity
  have hlower := Int.zpow_log_le_self (b := 10) (by norm_num) ha
  have hupper := Int.lt_zpow_succ_log_self (b := 10) (by norm_num) a
  rw [Nat.cast_ofNat] at hlower hupper
  refine ⟨Int.log 10 a, a / 10 ^ Int.log 10 a, decade_eq ha, Scalar.divide_of_ne_zero hunit.ne',
    (div_mul_cancel₀ _ hunit.ne').symm, ?_, ?_⟩
  · rwa [one_le_div hunit]
  · rwa [div_lt_iff₀ hunit, ← zpow_one_add₀ (by norm_num), add_comm]

/-! ### The two spacings -/

/-- Both sorts of spacing are made for lengths like these only; other ones have 1. -/
theorem length_guard (ha : 0 < a) : (decide (0.0 < a) && Scalar.isFinite a) = true := by
  rw [LawfulScalar.isFinite_eq, Bool.and_true, decide_eq_true_iff, Scalar.literal_zero]
  exact ha

theorem exists_gridSpacing {span : ℝ} {lines : ℤ} (hspan : 0 < span) (hlines : 1 ≤ lines) :
    ∃ spacing, gridSpacing span lines = .ok spacing ∧ Nice spacing ∧ span / lines ≤ spacing ∧
      spacing < 5 / 2 * (span / lines) := by
  have hcount : (0 : ℝ) < lines := by exact_mod_cast hlines
  obtain ⟨n, leading, hdecade, hleading, hrough, hone, hten⟩ := exists_leading (div_pos hspan hcount)
  have hunit : (0 : ℝ) < 10 ^ n := by positivity
  rw [gridSpacing, if_pos (length_guard hspan), Scalar.ofInt?_eq, ok_bind, Scalar.divide_of_ne_zero hcount.ne',
    ok_bind, hdecade, ok_bind, hleading, ok_bind]
  refine ⟨_, rfl, ?_⟩
  rw [hrough, ← mul_assoc, mul_le_mul_iff_left₀ hunit, mul_lt_mul_iff_left₀ hunit]
  norm_num only [ExactScalar.scientific_eq]
  split
  · exact ⟨(one_mul ((10 : ℝ) ^ n)).symm ▸ .one n, by linarith, by linarith⟩
  · split
    · exact ⟨.two n, by linarith, by linarith⟩
    · split
      · exact ⟨.five n, by linarith, by linarith⟩
      · exact ⟨nice_ten_mul n, by linarith, by linarith⟩

theorem exists_floorSpacing {extent : ℝ} (hextent : 0 < extent) : ∃ spacing, floorSpacing extent = .ok spacing ∧
    Nice spacing ∧ 4 ≤ 2 * extent / spacing ∧ 2 * extent / spacing < 10 := by
  have htwo : (2.0 : ℝ) * extent = 2 * extent := by norm_num only [ExactScalar.scientific_eq]
  have hspan : 0 < 2 * extent := by positivity
  obtain ⟨n, leading, hdecade, hleading, hrough, hone, hten⟩ := exists_leading hspan
  have hunit : (0 : ℝ) < 10 ^ n := by positivity
  rw [floorSpacing, htwo, if_pos (length_guard hspan), hdecade, ok_bind, hleading, ok_bind]
  refine ⟨_, rfl, ?_⟩
  have hparts (k : ℝ) : leading * 10 ^ n / (10 ^ n / k) = leading * k := by
    rw [div_div_eq_mul_div, mul_right_comm, mul_div_cancel_right₀ _ hunit.ne']
  rw [hrough]
  norm_num only [ExactScalar.scientific_eq]
  split
  · exact ⟨nice_div_five n, by linarith [hparts 5], by linarith [hparts 5]⟩
  · split
    · exact ⟨nice_div_two n, by linarith [hparts 2], by linarith [hparts 2]⟩
    · rw [mul_div_cancel_right₀ _ hunit.ne']
      exact ⟨.one n, by linarith, hten⟩

/-- The multiples between two bounds are no more than the whole steps that fit between them, and one. -/
theorem encard_multiplesWithin_le {spacing span : ℝ} {lines : ℤ} (hspacing : 0 < spacing)
    (hspan : span ≤ lines * spacing) (lo : ℝ) :
    (multiplesWithin spacing lo (lo + span)).encard ≤ (lines + 1).toNat := by
  have hcover : multiplesWithin spacing lo (lo + span) ⊆
      (fun k : ℤ => k * spacing) '' (Finset.Icc ⌈lo / spacing⌉ (⌈lo / spacing⌉ + lines) : Finset ℤ) := by
    rintro _ ⟨⟨k, rfl⟩, hlo, hhi⟩
    refine ⟨k, Finset.mem_coe.mpr (Finset.mem_Icc.mpr ⟨Int.ceil_le.mpr ((div_le_iff₀ hspacing).mpr hlo), ?_⟩), rfl⟩
    have hstart := (div_le_iff₀ hspacing).mp (Int.le_ceil (lo / spacing))
    have hle : (k : ℝ) * spacing ≤ (⌈lo / spacing⌉ + lines : ℤ) * spacing := by
      push_cast
      linarith
    exact Int.cast_le.mp (le_of_mul_le_mul_right hle hspacing)
  calc (multiplesWithin spacing lo (lo + span)).encard
      ≤ ((Finset.Icc ⌈lo / spacing⌉ (⌈lo / spacing⌉ + lines) : Finset ℤ) : Set ℤ).encard :=
        (Set.encard_le_encard hcover).trans (Set.encard_image_le _ _)
    _ = (lines + 1).toNat := by
        rw [Set.encard_coe_eq_coe_finsetCard, Int.card_Icc]
        congr 2
        ring

/-- Spacings are nice, and neither too narrow nor too wide for the length that they divide. -/
theorem nice_spacings :
    (∀ (span : ℝ) (lines : ℤ), 0 < span → 1 ≤ lines → ∃ spacing, gridSpacing span lines = .ok spacing ∧
      Nice spacing ∧ (span / lines ≤ spacing ∧ spacing < 5 / 2 * (span / lines)) ∧
      ∀ lo, (multiplesWithin spacing lo (lo + span)).encard ≤ (lines + 1).toNat) ∧
    ∀ extent : ℝ, 0 < extent → ∃ spacing, floorSpacing extent = .ok spacing ∧
      Nice spacing ∧ 4 ≤ 2 * extent / spacing ∧ 2 * extent / spacing < 10 := by
  refine ⟨fun span lines hspan hlines => ?_, fun extent hextent => exists_floorSpacing hextent⟩
  obtain ⟨spacing, heq, hnice, hlower, hupper⟩ := exists_gridSpacing hspan hlines
  have hcount : (0 : ℝ) < lines := by exact_mod_cast hlines
  have hspacing : 0 < spacing := (div_pos hspan hcount).trans_le hlower
  have hfits : span ≤ lines * spacing := by
    rwa [div_le_iff₀' hcount] at hlower
  exact ⟨spacing, heq, hnice, ⟨hlower, hupper⟩, encard_multiplesWithin_le hspacing hfits⟩

theorem nice_spacings_ten : (∃ spacing, gridSpacing (10 : ℝ) 8 = .ok spacing ∧ Nice spacing ∧
      (10 / (8 : ℤ) ≤ spacing ∧ spacing < 5 / 2 * (10 / (8 : ℤ))) ∧
      ∀ lo, (multiplesWithin spacing lo (lo + 10)).encard ≤ 9) ∧
    ∃ spacing, floorSpacing (5 : ℝ) = .ok spacing ∧ Nice spacing ∧ 4 ≤ 2 * 5 / spacing ∧ 2 * 5 / spacing < 10 :=
  ⟨nice_spacings.1 10 8 (by norm_num) (by norm_num), nice_spacings.2 5 (by norm_num)⟩

end FieldPlot.Sampling
