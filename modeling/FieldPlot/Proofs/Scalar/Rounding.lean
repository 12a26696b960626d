import FieldPlot.Proofs.Scalar.Difference

/-! Rounding to a double. Between a number and the double that it is rounded to there is no other double: what
lies above a double is not rounded below it, and what lies below is not rounded above. -/

namespace FieldPlot.Number

open Float.Model (UnpackedFloat totalExponent)
open Float.Model.Format (binary64)
open Float.Model.UnpackedFloat

/-! ### Cut mantissas -/

/-- A mantissa as it is cut from a number, which the bits behind it tell to be larger than the mantissa. -/
structure CutFrom (em : ExtendedMantissa) (x : ℚ) : Prop where
  le : em.mantissa ≤ x
  lt : x < em.mantissa + 1
  strict : em.roundBit = true ∨ em.stickyBit = true → em.mantissa < x

variable {em : ExtendedMantissa} {x : ℚ}

theorem CutFrom.shiftRightOne (h : CutFrom em x) : CutFrom em.shiftRightOne (x / 2) := by
  obtain ⟨m, r, t⟩ := em
  obtain ⟨hle, hlt, hstrict⟩ := h
  have hsplit : ((m % 2 : ℕ) : ℚ) + 2 * ((m / 2 : ℕ) : ℚ) = m := by exact_mod_cast Nat.mod_add_div m 2
  have hlow : (0 : ℚ) ≤ (m % 2 : ℕ) := Nat.cast_nonneg _
  have hhigh : ((m % 2 : ℕ) : ℚ) ≤ 1 := by exact_mod_cast Nat.le_of_lt_succ (Nat.mod_lt m Nat.two_pos)
  dsimp only at hle hlt hstrict
  refine ⟨?_, ?_, fun hbits => ?_⟩
  · show ((m / 2 : ℕ) : ℚ) ≤ x / 2
    linarith
  · show x / 2 < ((m / 2 : ℕ) : ℚ) + 1
    linarith
  · show ((m / 2 : ℕ) : ℚ) < x / 2
    rcases hbits with hround | hsticky
    · have hodd : m % 2 = 1 := by
        have hne : m % 2 ≠ 0 := by simpa [ExtendedMantissa.shiftRightOne] using hround
        omega
      rw [hodd, Nat.cast_one] at hsplit
      linarith
    · have hlt := hstrict (by simpa [ExtendedMantissa.shiftRightOne] using hsticky)
      linarith

theorem CutFrom.shiftRight (h : CutFrom em x) (k : ℕ) : CutFrom (em >>> k) (x / 2 ^ k) := by
  induction k with
  | zero =>
    rw [pow_zero, div_one]
    exact h
  | succ k ih =>
    rw [pow_succ, ← div_div]
    exact ih.shiftRightOne

theorem CutFrom.roundedMantissa_le {n : ℕ} (h : CutFrom em x) (hx : x ≤ n) : em.roundedMantissa ≤ n := by
  obtain ⟨m, r, t⟩ := em
  have hle : m ≤ n := by exact_mod_cast h.le.trans hx
  have hlt (hbits : r = true ∨ t = true) : m < n := by exact_mod_cast (h.strict hbits).trans_le hx
  cases r with
  | false => cases t <;> exact hle
  | true =>
    have hsucc : m + 1 ≤ n := hlt (.inl rfl)
    cases t with
    | false =>
      show m + m % 2 ≤ n
      omega
    | true => exact hsucc

theorem CutFrom.le_roundedMantissa {n : ℕ} (h : CutFrom em x) (hx : n ≤ x) : n ≤ em.roundedMantissa := by
  have hlt : n < em.mantissa + 1 := by exact_mod_cast hx.trans_lt h.lt
  exact (Nat.le_of_lt_succ hlt).trans (Number.le_roundedMantissa em)

theorem ofMantissaAndAccuracy_mantissa (m : ℕ) (accuracy : Accuracy) :
    (ExtendedMantissa.ofMantissaAndAccuracy m accuracy).mantissa = m := by
  unfold ExtendedMantissa.ofMantissaAndAccuracy
  split <;> rfl

theorem CutFrom.of_exact (m : ℕ) : CutFrom (ExtendedMantissa.ofMantissaAndAccuracy m .exact) m :=
  ⟨le_rfl, lt_add_one _, fun h => by simp [ExtendedMantissa.ofMantissaAndAccuracy] at h⟩

theorem CutFrom.of_quotient (n : ℕ) {d : ℕ} (hd : 0 < d) :
    CutFrom (ExtendedMantissa.ofMantissaAndAccuracy (n / d) (accuracyOfFraction (n % d) d)) (n / d) := by
  have hpos : (0 : ℚ) < d := Nat.cast_pos.mpr hd
  have hsplit : ((n % d : ℕ) : ℚ) + d * ((n / d : ℕ) : ℚ) = n := by exact_mod_cast Nat.mod_add_div n d
  refine ⟨?_, ?_, fun hbits => ?_⟩ <;> rw [ofMantissaAndAccuracy_mantissa]
  · rw [le_div_iff₀ hpos]
    linarith [Nat.cast_nonneg (α := ℚ) (n % d)]
  · have hrest : ((n % d : ℕ) : ℚ) < d := by exact_mod_cast Nat.mod_lt n hd
    rw [div_lt_iff₀ hpos]
    linarith
  · have hrest : (0 : ℚ) < (n % d : ℕ) := by
      refine Nat.cast_pos.mpr (Nat.pos_of_ne_zero fun hzero => ?_)
      simp [hzero, accuracyOfFraction, ExtendedMantissa.ofMantissaAndAccuracy] at hbits
    rw [lt_div_iff₀ hpos]
    linarith

/-! ### Mantissas that fit -/

/-- The number that a mantissa stands for at an exponent. -/
def scaled (m : ℕ) (e : ℤ) : ℚ :=
  m * 2 ^ e

/-- A mantissa and an exponent as a double has them, apart from how large the exponent is. -/
structure Fits (m : ℕ) (e : ℤ) : Prop where
  mantissa : m < 2 ^ 53
  exponent : -1074 ≤ e
  full : -1074 < e → 2 ^ 52 ≤ m

variable {m n : ℕ} {e f : ℤ}

theorem scaled_eq (m : ℕ) (h : f ≤ e) : scaled m e = (m * 2 ^ (e - f).toNat : ℕ) * 2 ^ f := by
  have hexponent : e = ((e - f).toNat : ℤ) + f := by omega
  have hpower : (2 : ℚ) ^ e = 2 ^ (e - f).toNat * 2 ^ f := by
    conv_lhs => rw [hexponent, zpow_add₀ two_ne_zero, zpow_natCast]
  rw [scaled, hpower, Nat.cast_mul, Nat.cast_pow, Nat.cast_ofNat, mul_assoc]

theorem scaled_le_scaled (h : m ≤ n) (e : ℤ) : scaled m e ≤ scaled n e :=
  mul_le_mul_of_nonneg_right (Nat.cast_le.mpr h) (zpow_nonneg zero_le_two e)

/-- The larger exponent goes with the larger number: its mantissa is a full one. -/
theorem Fits.scaled_lt (hm : Fits m e) (hn : Fits n f) (h : e < f) : scaled m e < scaled n f := by
  have hfull : 2 ^ 52 ≤ n := hn.full (hm.exponent.trans_lt h)
  have hshift : 2 ≤ 2 ^ (f - e).toNat := Nat.le_self_pow (by omega) 2
  have hmantissa : m < n * 2 ^ (f - e).toNat :=
    calc m < 2 ^ 52 * 2 := hm.mantissa
      _ ≤ n * 2 ^ (f - e).toNat := Nat.mul_le_mul hfull hshift
  rw [scaled_eq n h.le, scaled]
  exact mul_lt_mul_of_pos_right (Nat.cast_lt.mpr hmantissa) (zpow_pos two_pos e)

theorem Fits.scaled_le_iff (hm : Fits m e) (hn : Fits n f) : scaled m e ≤ scaled n f ↔ e < f ∨ e = f ∧ m ≤ n := by
  rcases lt_trichotomy e f with hlt | rfl | hlt
  · exact iff_of_true (hm.scaled_lt hn hlt).le (.inl hlt)
  · have hpos : (0 : ℚ) < 2 ^ e := zpow_pos two_pos e
    simp [scaled, hpos]
  · exact iff_of_false (hn.scaled_lt hm hlt).not_ge (by omega)

/-! ### Rounding -/

theorem targetExponent_eq (m : ℕ) (e : ℤ) :
    binary64.targetExponent (totalExponent m e) = max (m.log2 + e - 52) (-1074) := by
  have htarget : binary64.targetExponent (totalExponent m e) = max (m.log2 + 1 + e - 53) (-1074) := rfl
  rw [htarget]
  omega

theorem shiftToTargetExponent_fits (accuracy : Accuracy) (hbits : 2 ^ 52 ≤ m ∨ e ≤ -1074) :
    Fits (shiftToTargetExponent binary64 m e accuracy).1.mantissa (shiftToTargetExponent binary64 m e accuracy).2 := by
  unfold shiftToTargetExponent shiftToExponent
  dsimp only
  rw [mantissa_shiftRight, ofMantissaAndAccuracy_mantissa, targetExponent_eq]
  by_cases hm : m = 0
  · subst hm
    have hexponent : e + (max ((Nat.log2 0 : ℤ) + e - 52) (-1074) - e).toNat = -1074 := by
      have hlog : Nat.log2 0 = 0 := by decide
      rw [hlog]
      omega
    rw [hexponent, Nat.zero_div]
    exact ⟨by decide, le_rfl, fun h => absurd h (lt_irrefl _)⟩
  · have hle := Nat.log2_self_le hm
    have hlt := Nat.lt_log2_self (n := m)
    have hlog : 52 ≤ m.log2 ∨ e ≤ -1074 := hbits.imp_left fun h => (Nat.le_log2 hm).mpr h
    obtain ⟨k, hk⟩ : ∃ k, (max ((m.log2 : ℤ) + e - 52) (-1074) - e).toNat = k := ⟨_, rfl⟩
    rw [hk]
    refine ⟨(Nat.div_lt_iff_lt_mul (Nat.two_pow_pos k)).mpr ?_, by omega, fun hmin => ?_⟩
    · rw [← Nat.pow_add]
      exact hlt.trans_le (Nat.pow_le_pow_right Nat.two_pos (by omega))
    · rw [Nat.le_div_iff_mul_le (Nat.two_pow_pos k), ← Nat.pow_add]
      exact (Nat.pow_le_pow_right Nat.two_pos (by omega)).trans hle

theorem shiftToTargetExponent_eq (accuracy : Accuracy) {k : ℕ}
    (hk : (binary64.targetExponent (totalExponent m e) - e).toNat = k) :
    (shiftToTargetExponent binary64 m e accuracy).1 = ExtendedMantissa.ofMantissaAndAccuracy m accuracy >>> k ∧
      (shiftToTargetExponent binary64 m e accuracy).2 = e + k := by
  subst hk
  exact ⟨rfl, rfl⟩

/-- A mantissa that rounding has made one bit too long is cut by a zero. -/
theorem carry_fits (hm : m ≤ 2 ^ 53) (he : -1074 ≤ e) (hfull : -1074 < e → 2 ^ 52 ≤ m) :
    Fits (shiftToTargetExponent binary64 m e .exact).1.mantissa (shiftToTargetExponent binary64 m e .exact).2 ∧
      scaled (shiftToTargetExponent binary64 m e .exact).1.mantissa (shiftToTargetExponent binary64 m e .exact).2 =
        scaled m e := by
  rcases hm.lt_or_eq with hlt | rfl
  · have hlog : m.log2 ≤ 52 := by
      rcases Nat.eq_zero_or_pos m with rfl | hpos
      · decide
      · exact Nat.le_of_lt_succ ((Nat.log2_lt hpos.ne').mpr hlt)
    have hk : (binary64.targetExponent (totalExponent m e) - e).toNat = 0 := by
      rw [targetExponent_eq]
      omega
    obtain ⟨hmantissa, hexponent⟩ := shiftToTargetExponent_eq .exact hk
    rw [hmantissa, hexponent, mantissa_shiftRight, ofMantissaAndAccuracy_mantissa, pow_zero, Nat.div_one,
      Nat.cast_zero, add_zero]
    exact ⟨⟨hlt, he, hfull⟩, rfl⟩
  · have hlog : Nat.log2 (2 ^ 53) = 53 := Nat.log2_two_pow
    have hk : (binary64.targetExponent (totalExponent (2 ^ 53) e) - e).toNat = 1 := by
      rw [targetExponent_eq, hlog]
      omega
    obtain ⟨hmantissa, hexponent⟩ := shiftToTargetExponent_eq .exact hk
    rw [hmantissa, hexponent, mantissa_shiftRight, ofMantissaAndAccuracy_mantissa]
    refine ⟨⟨by decide, by omega, fun _ => by decide⟩, ?_⟩
    have hstep : (e + (1 : ℕ) - e).toNat = 1 := by omega
    rw [scaled_eq _ (by omega : e ≤ e + (1 : ℕ)), hstep]
    rfl

/-- The positive double with that mantissa and exponent, or zero. -/
def assembled (m : ℕ) (e : ℤ) : UnpackedFloat :=
  if h : m = 0 then .zero .positive else .finite .positive m e (Nat.pos_of_ne_zero h)

/-- A double that no other double separates from the number. -/
def Faithful (a : UnpackedFloat) (x : ℚ) : Prop :=
  ∃ n f, Fits n f ∧ a = assembled n f ∧ ∀ k g, Fits k g →
    (x ≤ scaled k g → scaled n f ≤ scaled k g) ∧ (scaled k g ≤ x → scaled k g ≤ scaled n f)

theorem roundWithAccuracy_faithful {accuracy : Accuracy}
    (hcut : CutFrom (ExtendedMantissa.ofMantissaAndAccuracy m accuracy) x) (hbits : 2 ^ 52 ≤ m ∨ e ≤ -1074) :
    Faithful (roundWithAccuracy binary64 .positive m e accuracy) (x * 2 ^ e) := by
  have hfits := shiftToTargetExponent_fits accuracy hbits
  obtain ⟨hmantissa, hexponent⟩ := shiftToTargetExponent_eq (m := m) (e := e) accuracy rfl
  have hcut := hmantissa ▸ hcut.shiftRight _
  generalize hfirst : shiftToTargetExponent binary64 m e accuracy = first at hfits hmantissa hexponent hcut
  obtain ⟨em, e₁⟩ := first
  dsimp only at hfits hexponent hcut
  -- In units of the last place the number is between the mantissa and the next one.
  obtain ⟨y, hy⟩ : ∃ y, y = x / 2 ^ (binary64.targetExponent (totalExponent m e) - e).toNat := ⟨_, rfl⟩
  rw [← hy] at hcut
  have hx : x * 2 ^ e = y * 2 ^ e₁ := by
    rw [hexponent, zpow_add₀ two_ne_zero, zpow_natCast, hy]
    field_simp
  have hrounded : em.roundedMantissa ≤ 2 ^ 53 :=
    hcut.roundedMantissa_le (hcut.lt.le.trans (by exact_mod_cast hfits.mantissa))
  have hcarry := carry_fits hrounded hfits.exponent fun h => (hfits.full h).trans (le_roundedMantissa em)
  refine ⟨_, _, hcarry.1, ?_, fun k g hkg => ?_⟩
  · unfold roundWithAccuracy
    rw [hfirst]
    rfl
  · have hpos : (0 : ℚ) < 2 ^ e₁ := zpow_pos two_pos e₁
    have hbelow : scaled em.mantissa e₁ ≤ y * 2 ^ e₁ := mul_le_mul_of_nonneg_right hcut.le hpos.le
    rw [hcarry.2, hx]
    rcases le_or_gt e₁ g with hle | hlt
    · rw [scaled_eq k hle, scaled]
      refine ⟨fun h => ?_, fun h => ?_⟩
      · have hround := hcut.roundedMantissa_le (le_of_mul_le_mul_right h hpos)
        exact mul_le_mul_of_nonneg_right (Nat.cast_le.mpr hround) hpos.le
      · have hround := hcut.le_roundedMantissa (le_of_mul_le_mul_right h hpos)
        exact mul_le_mul_of_nonneg_right (Nat.cast_le.mpr hround) hpos.le
    · have hsmall : scaled k g < scaled em.mantissa e₁ := hkg.scaled_lt hfits hlt
      refine ⟨fun h => absurd (hsmall.trans_le hbelow) h.not_gt, fun _ => ?_⟩
      exact hsmall.le.trans (scaled_le_scaled (le_roundedMantissa em) e₁)

theorem round_faithful (hm : 0 < m) (e : ℤ) : Faithful (round binary64 .positive m e) (scaled m e) := by
  obtain ⟨d, hd⟩ : ∃ d, (e - binary64.targetExponent (totalExponent m e)).toNat = d := ⟨_, rfl⟩
  have hround : round binary64 .positive m e = roundWithAccuracy binary64 .positive (m <<< d) (e - d) .exact := by
    rw [← hd]
    rfl
  have hscaled : scaled m e = (m <<< d : ℕ) * 2 ^ (e - d) := by
    have hshift : (e - (e - d)).toNat = d := by omega
    rw [scaled_eq m (by omega : e - d ≤ e), hshift, Nat.shiftLeft_eq]
  rw [hround, hscaled]
  refine roundWithAccuracy_faithful (.of_exact _) ?_
  rw [targetExponent_eq] at hd
  by_cases hmin : e - d ≤ -1074
  · exact .inr hmin
  · refine .inl ?_
    rw [Nat.shiftLeft_eq]
    calc 2 ^ 52 ≤ 2 ^ (m.log2 + d) := Nat.pow_le_pow_right Nat.two_pos (by omega)
      _ = 2 ^ m.log2 * 2 ^ d := Nat.pow_add 2 _ _
      _ ≤ m * 2 ^ d := Nat.mul_le_mul_right _ (Nat.log2_self_le hm.ne')

theorem normalize_of_pos (hm : 0 < m) (e : ℤ) (zeroSign : Sign) :
    UnpackedFloat.normalize binary64 m e zeroSign = round binary64 .positive m e := by
  unfold UnpackedFloat.normalize
  rw [Int.compare_eq_gt.mpr (Int.natCast_pos.mpr hm)]
  rfl

theorem add_faithful (hm : 0 < m) (hn : 0 < n) :
    Faithful (add binary64 (.finite .positive m e hm) (.finite .positive n f hn)) (scaled m e + scaled n f) := by
  obtain ⟨g, hg⟩ : ∃ g, min e f = g := ⟨_, rfl⟩
  have hsum : scaled m e + scaled n f = scaled (m * 2 ^ (e - g).toNat + n * 2 ^ (f - g).toNat) g := by
    rw [scaled_eq m (by omega : g ≤ e), scaled_eq n (by omega : g ≤ f), ← add_mul, ← Nat.cast_add, scaled]
  have hpos : 0 < m * 2 ^ (e - g).toNat + n * 2 ^ (f - g).toNat :=
    Nat.add_pos_left (Nat.mul_pos hm (Nat.two_pow_pos _)) _
  have hadd : add binary64 (.finite .positive m e hm) (.finite .positive n f hn) =
      UnpackedFloat.normalize binary64 (m * 2 ^ (e - g).toNat + n * 2 ^ (f - g).toNat : ℕ) g .positive := by
    rw [← Nat.shiftLeft_eq, ← Nat.shiftLeft_eq, ← hg]
    rfl
  rw [hadd, hsum, normalize_of_pos hpos]
  exact round_faithful hpos g

/-- The quotient is taken with so many bits that rounding does not need more of them, or at the least exponent. -/
theorem div_faithful (hm : 0 < m) (hn : 0 < n) :
    Faithful (div binary64 (.finite .positive m e hm) (.finite .positive n f hn)) (scaled m e / scaled n f) := by
  obtain ⟨t, ht⟩ : ∃ t, min (e - f) (max ((m.log2 + 1 + e - (n.log2 + 1 + f)) - 53) (-1074)) = t := ⟨_, rfl⟩
  obtain ⟨d, hd⟩ : ∃ d, (e - f - t).toNat = d := ⟨_, rfl⟩
  have hdiv : div binary64 (.finite .positive m e hm) (.finite .positive n f hn) =
      roundWithAccuracy binary64 .positive (m * 2 ^ d / n) t (accuracyOfFraction (m * 2 ^ d % n) n) := by
    rw [← Nat.shiftLeft_eq, ← hd, ← ht]
    rfl
  have hquotient : scaled m e / scaled n f = ((m * 2 ^ d : ℕ) / n : ℚ) * 2 ^ t := by
    have hexponent : e = f + d + t := by omega
    have hpos : (0 : ℚ) < 2 ^ f := zpow_pos two_pos f
    rw [scaled, scaled, hexponent, zpow_add₀ two_ne_zero, zpow_add₀ two_ne_zero, zpow_natCast, Nat.cast_mul,
      Nat.cast_pow, Nat.cast_ofNat]
    field_simp
  rw [hdiv, hquotient]
  refine roundWithAccuracy_faithful (.of_quotient _ hn) ?_
  by_cases hmin : t ≤ -1074
  · exact .inr hmin
  · refine .inl ((Nat.le_div_iff_mul_le hn).mpr ?_)
    have hlog : 52 + (n.log2 + 1) ≤ m.log2 + d := by omega
    calc 2 ^ 52 * n ≤ 2 ^ 52 * 2 ^ (n.log2 + 1) := Nat.mul_le_mul_left _ Nat.lt_log2_self.le
      _ = 2 ^ (52 + (n.log2 + 1)) := (Nat.pow_add 2 _ _).symm
      _ ≤ 2 ^ (m.log2 + d) := Nat.pow_le_pow_right Nat.two_pos hlog
      _ = 2 ^ m.log2 * 2 ^ d := Nat.pow_add 2 _ _
      _ ≤ m * 2 ^ d := Nat.mul_le_mul_right _ (Nat.log2_self_le hm.ne')

end FieldPlot.Number
