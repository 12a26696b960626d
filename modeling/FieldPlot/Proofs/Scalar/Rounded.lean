import FieldPlot.Proofs.Scalar.Signed
import FieldPlot.Proofs.Scalar.Valued

/-! Scalars whose field operations are the exact ones with a rounding. A result is finite as long as it is not too
large, and a finite one has come from finite operands. So it is with doubles, and with exact numbers, which are not
rounded at all. -/

namespace FieldPlot

open HasValue (value)

/-- What a number is rounded to: no finite scalar lies between the two, and where finite scalars enclose the number, it
is finite itself. -/
structure RoundsTo {α K : Type} [Scalar α] [LE K] [HasValue α K] (r : α) (x : K) : Prop where
  isFinite {a b : α} : Scalar.isFinite a = true → Scalar.isFinite b = true → value a ≤ x → x ≤ value b →
    Scalar.isFinite r = true
  le {b : α} : Scalar.isFinite r = true → Scalar.isFinite b = true → x ≤ value b → value r ≤ value b
  ge {a : α} : Scalar.isFinite r = true → Scalar.isFinite a = true → value a ≤ x → value a ≤ value r

class RoundedScalar (α : Type) (K : outParam Type) [Scalar α] [Field K] [LinearOrder K] [IsStrictOrderedRing K]
    [HasValue α K] : Prop extends ValuedScalar α K where
  isFinite_of_unbounded (a : α) : Scalar.isBounded α = false → Scalar.isFinite a = true
  add_rounds {a b : α} : Scalar.isFinite a = true → Scalar.isFinite b = true → RoundsTo (a + b) (value a + value b)
  sub_rounds {a b : α} : Scalar.isFinite a = true → Scalar.isFinite b = true → RoundsTo (a - b) (value a - value b)
  mul_rounds {a b : α} : Scalar.isFinite a = true → Scalar.isFinite b = true → RoundsTo (a * b) (value a * value b)
  div_rounds {a b : α} : Scalar.isFinite a = true → Scalar.isFinite b = true → value b ≠ 0 →
    RoundsTo (a / b) (value a / value b)
  isFinite_of_neg {a : α} : Scalar.isFinite (-a) = true → Scalar.isFinite a = true
  isFinite_of_add {a b : α} : Scalar.isFinite (a + b) = true → Scalar.isFinite a = true ∧ Scalar.isFinite b = true
  isFinite_of_sub {a b : α} : Scalar.isFinite (a - b) = true → Scalar.isFinite a = true ∧ Scalar.isFinite b = true
  isFinite_of_mul {a b : α} : Scalar.isFinite (a * b) = true → Scalar.isFinite a = true ∧ Scalar.isFinite b = true
  isFinite_of_div {a b : α} : Scalar.isFinite (a / b) = true → Scalar.isFinite a = true
  /-- Divided by an infinity, a number vanishes. -/
  value_div_infinite {a b : α} : Scalar.isFinite a = true → Scalar.isFinite b = false →
    Scalar.isFinite (a / b) = true → value (a / b) = 0
  /-- Closely above every number that is not too large there is a scalar. -/
  exists_above {x : K} : 0 ≤ x → x ≤ 3 * 2 ^ (1022 : ℤ) →
    ∃ a : α, Scalar.isFinite a = true ∧ x ≤ value a ∧ value a ≤ x * (1 + 2 ^ (-52 : ℤ)) + 2 ^ (-1074 : ℤ)
  abs_value_lt {a : α} : Scalar.isBounded α = true → Scalar.isFinite a = true → |value a| < 2 ^ (1024 : ℤ)
  isFinite_sub_neg {a : α} : Scalar.isFinite (2.0 * a) = true → Scalar.isFinite (a - -a) = true
  value_sub_neg {a : α} : Scalar.isFinite (a - -a) = true → value (a - -a) = 2 * value a
  beq_zero {a : α} : Scalar.isFinite a = true → value a = 0 → (a == 0.0) = true
  one : Scalar.isFinite (1.0 : α) = true ∧ value (1.0 : α) = 1
  four : Scalar.isFinite (4.0 : α) = true ∧ value (4.0 : α) = 4
  twoHundred : Scalar.isFinite (200.0 : α) = true ∧ value (200.0 : α) = 200

section

variable {α : Type} [IntegralScalar α]

theorem roundsTo_exact (x : α) : RoundsTo x x where
  isFinite _ _ _ _ := LawfulScalar.isFinite_eq x
  le _ _ h := h
  ge _ _ h := h

instance : RoundedScalar α α where
  isFinite_of_unbounded a _ := LawfulScalar.isFinite_eq a
  add_rounds _ _ := roundsTo_exact _
  sub_rounds _ _ := roundsTo_exact _
  mul_rounds _ _ := roundsTo_exact _
  div_rounds _ _ _ := roundsTo_exact _
  isFinite_of_neg _ := LawfulScalar.isFinite_eq _
  isFinite_of_add _ := ⟨LawfulScalar.isFinite_eq _, LawfulScalar.isFinite_eq _⟩
  isFinite_of_sub _ := ⟨LawfulScalar.isFinite_eq _, LawfulScalar.isFinite_eq _⟩
  isFinite_of_mul _ := ⟨LawfulScalar.isFinite_eq _, LawfulScalar.isFinite_eq _⟩
  isFinite_of_div _ := LawfulScalar.isFinite_eq _
  value_div_infinite _ hb _ := by
    rw [LawfulScalar.isFinite_eq] at hb
    cases hb
  exists_above {x} hx _ := by
    have hstep : (0 : α) ≤ 2 ^ (-52 : ℤ) := zpow_nonneg zero_le_two _
    have hle : x ≤ x * (1 + 2 ^ (-52 : ℤ)) := le_mul_of_one_le_right hx (le_add_of_nonneg_right hstep)
    exact ⟨x, LawfulScalar.isFinite_eq x, le_rfl, hle.trans (le_add_of_nonneg_right (zpow_nonneg zero_le_two _))⟩
  abs_value_lt h _ := by
    rw [LawfulScalar.isBounded_eq] at h
    cases h
  isFinite_sub_neg _ := LawfulScalar.isFinite_eq _
  value_sub_neg {a} _ := by
    show a - -a = 2 * a
    ring
  beq_zero _ h := Scalar.beq_zero_iff.mpr h
  one := ⟨LawfulScalar.isFinite_eq _, Scalar.literal_one⟩
  four := ⟨LawfulScalar.isFinite_eq _, by rw [value_exact, ExactScalar.scientific_eq]; norm_num⟩
  twoHundred := ⟨LawfulScalar.isFinite_eq _, by rw [value_exact, ExactScalar.scientific_eq]; norm_num⟩

end

/-! ### Doubles -/

namespace Number

open Float.Model (UnpackedFloat)
open Float.Model.Format (binary64)
open Float.Model.UnpackedFloat

variable {u : UnpackedFloat} {a b r : Float} {m n : ℕ} {e f : ℤ} {x : ℚ}

theorem exists_fits (ha : a.isFinite = true) (hpos : 0 ≤ valueOf a) :
    ∃ m e, Fits m e ∧ e ≤ 971 ∧ valueOf a = scaled m e := by
  rw [valueOf_eq ha] at hpos ⊢
  rcases finite_cases ha with ⟨s, h⟩ | ⟨_ | _, m, e, hm, h, hfits, hle⟩ <;> rw [h] at hpos ⊢
  · exact ⟨0, -1074, fits_zero, by decide, by rw [toRat_zero, scaled_zero]⟩
  · rw [toRat_negative] at hpos
    exact absurd (scaled_pos hm e) (by linarith)
  · exact ⟨m, e, hfits, hle, rfl⟩

theorem Rounds.roundsTo (h : Rounds u x) (hr : r.toModel.unpack = unpack binary64 (pack binary64 u)) :
    RoundsTo r x := by
  obtain ⟨s, y, n, f, hy, rfl, hfits, hfinite, hvalue, hfaithful⟩ := h.cases hr
  have habove {b : Float} (hb : b.isFinite = true) (h : y ≤ valueOf b) : f ≤ 971 ∧ scaled n f ≤ valueOf b := by
    obtain ⟨k, g, hkg, hg, hb⟩ := exists_fits hb (hy.trans h)
    rw [hb] at h ⊢
    have hle := (hfaithful k g hkg).1 h
    exact ⟨(hfits.exponent_le_of_scaled_le hkg hle).trans hg, hle⟩
  have hbelow {b : Float} (hb : b.isFinite = true) (h : valueOf b ≤ y) : valueOf b ≤ scaled n f := by
    rcases le_or_gt 0 (valueOf b) with hpos | hneg
    · obtain ⟨k, g, hkg, -, hb⟩ := exists_fits hb hpos
      rw [hb] at h ⊢
      exact (hfaithful k g hkg).2 h
    · exact hneg.le.trans (scaled_nonneg n f)
  cases s with
  | positive =>
    rw [factor, one_mul] at *
    refine ⟨fun _ hb _ hle => hfinite.mpr (habove hb hle).1, fun hr hb hle => ?_, fun hr ha hge => ?_⟩
    · exact (hvalue hr).trans_le (habove hb hle).2
    · exact (hbelow ha hge).trans_eq (hvalue hr).symm
  | negative =>
    rw [factor, neg_one_mul] at *
    have hneg {a : Float} (ha : a.isFinite = true) : value (-a) = -value a := valueOf_neg ha
    refine ⟨fun ha _ hge _ => hfinite.mpr (habove (isFinite_neg ha) ?_).1, fun hr hb hle => ?_, fun hr ha hge => ?_⟩
    · exact (le_neg_of_le_neg hge).trans_eq (hneg ha).symm
    · have hle := hbelow (isFinite_neg hb) ((hneg hb).trans_le (neg_le_of_neg_le hle))
      exact (hvalue hr).trans_le (neg_le_of_neg_le ((hneg hb).symm.trans_le hle))
    · have hge := (habove (isFinite_neg ha) ((le_neg_of_le_neg hge).trans_eq (hneg ha).symm)).2
      exact (le_neg_of_le_neg (hge.trans_eq (hneg ha))).trans_eq (hvalue hr).symm

theorem double_add_rounds (ha : a.isFinite = true) (hb : b.isFinite = true) : RoundsTo (a + b) (value a + value b) := by
  have hrounds := add_rounds ha hb (unpack_canonical _) (unpack_canonical _)
  rw [← valueOf_eq ha, ← valueOf_eq hb] at hrounds
  exact hrounds.roundsTo (unpack_add a b)

/-- A difference is the sum with the opposite number. -/
theorem sub_rounds (ha : a.isFinite = true) (hb : b.isFinite = true) :
    Rounds (sub binary64 a.toModel.unpack b.toModel.unpack) (valueOf a - valueOf b) := by
  have hrounds := add_rounds ha (isFinite_neg hb) (unpack_canonical _) (unpack_canonical _)
  rw [← valueOf_eq ha, ← valueOf_eq (isFinite_neg hb), valueOf_neg hb, unpack_neg hb, ← sub_eq_add,
    ← sub_eq_add_neg] at hrounds
  exact hrounds

theorem double_mul_rounds (ha : a.isFinite = true) (hb : b.isFinite = true) : RoundsTo (a * b) (value a * value b) := by
  have hrounds := mul_rounds ha hb (unpack_canonical _) (unpack_canonical _)
  rw [← valueOf_eq ha, ← valueOf_eq hb] at hrounds
  exact hrounds.roundsTo (unpack_mul a b)

theorem double_div_rounds (ha : a.isFinite = true) (hb : b.isFinite = true) (hne : valueOf b ≠ 0) :
    RoundsTo (a / b) (value a / value b) := by
  have hrounds := div_rounds ha hb (valueOf_eq hb ▸ hne)
  rw [← valueOf_eq ha, ← valueOf_eq hb] at hrounds
  exact hrounds.roundsTo (unpack_div a b)

/-! #### Sizes -/

theorem abs_valueOf (ha : a.isFinite = true) : ∃ m e, Fits m e ∧ e ≤ 971 ∧ |valueOf a| = scaled m e := by
  rw [← valueOf_abs ha]
  exact exists_fits (isFinite_abs ha) (valueOf_abs ha ▸ abs_nonneg _)

theorem abs_valueOf_lt (ha : a.isFinite = true) : |valueOf a| < 2 ^ (1024 : ℤ) := by
  obtain ⟨m, e, hfits, he, hvalue⟩ := abs_valueOf ha
  have hmantissa : (m : ℚ) < 2 ^ (53 : ℤ) := by exact_mod_cast hfits.mantissa
  calc |valueOf a| = m * 2 ^ e := hvalue
    _ < 2 ^ (53 : ℤ) * 2 ^ e := mul_lt_mul_of_pos_right hmantissa (zpow_pos two_pos e)
    _ = 2 ^ (53 + e) := (zpow_add₀ two_ne_zero _ _).symm
    _ ≤ 2 ^ (1024 : ℤ) := zpow_le_zpow_right₀ one_le_two (by omega)

theorem Fits.double (h : Fits m e) : ∃ n f, Fits n f ∧ scaled n f = 2 * scaled m e := by
  by_cases hfull : 2 ^ 52 ≤ m
  · refine ⟨m, e + 1, ⟨h.mantissa, by linarith [h.exponent], fun _ => hfull⟩, ?_⟩
    rw [scaled, scaled, zpow_add_one₀ two_ne_zero]
    ring
  · have hle := h.exponent
    have hleast := h.full
    obtain rfl : e = -1074 := by omega
    refine ⟨2 * m, -1074, ⟨by omega, le_rfl, fun h => absurd h (lt_irrefl _)⟩, ?_⟩
    rw [scaled, scaled, Nat.cast_mul, Nat.cast_ofNat, mul_assoc]

/-- Twice a number is exact, or too large for a double, however it is computed. -/
theorem exists_double (ha : a.isFinite = true) : ∃ n f, Fits n f ∧ |2 * valueOf a| = scaled n f := by
  obtain ⟨m, e, hfits, -, hvalue⟩ := abs_valueOf ha
  obtain ⟨n, f, hdouble, hscaled⟩ := hfits.double
  exact ⟨n, f, hdouble, by rw [hscaled, abs_mul, hvalue, abs_two]⟩

theorem valueOf_sub_neg_exact (ha : a.isFinite = true) (h : Fits n f) (hdouble : |2 * valueOf a| = scaled n f) :
    ((a - -a).isFinite = true ↔ f ≤ 971) ∧ ((a - -a).isFinite = true → valueOf (a - -a) = 2 * valueOf a) := by
  have hrounds := sub_rounds ha (isFinite_neg ha)
  rw [valueOf_neg ha, sub_neg_eq_add, ← two_mul] at hrounds
  exact hrounds.exact (unpack_sub a (-a)) h hdouble

theorem valueOf_two : (2.0 : Float).isFinite = true ∧ valueOf 2.0 = 2 :=
  ⟨stands_two.valueOf.1, stands_two.valueOf.2.trans (by norm_num [scaled])⟩

theorem isFinite_sub_neg (h : (2.0 * a).isFinite = true) : (a - -a).isFinite = true := by
  have ha := (isFinite_of_mul h).2
  obtain ⟨n, f, hfits, hdouble⟩ := exists_double ha
  have htwo : (2.0 : Float).toModel.unpack.isFinite = true := valueOf_two.1
  have hrounds := mul_rounds htwo ha (unpack_canonical _) (unpack_canonical _)
  rw [← valueOf_eq valueOf_two.1, ← valueOf_eq ha, valueOf_two.2] at hrounds
  exact (valueOf_sub_neg_exact ha hfits hdouble).1.mpr ((hrounds.exact (unpack_mul _ _) hfits hdouble).1.mp h)

theorem valueOf_sub_neg (h : (a - -a).isFinite = true) : valueOf (a - -a) = 2 * valueOf a := by
  have ha := (isFinite_of_sub h).1
  obtain ⟨n, f, hfits, hdouble⟩ := exists_double ha
  exact (valueOf_sub_neg_exact ha hfits hdouble).2 h

theorem valueOf_encode (hfull : 2 ^ 52 ≤ m) (hlt : m < 2 ^ 53) (hmin : -1074 ≤ e) (hmax : e ≤ 971) :
    (encode m e).isFinite = true ∧ valueOf (encode m e) = scaled m e := by
  obtain ⟨hfinite, hdecode⟩ := decode_encode hfull hlt hmin hmax
  exact ⟨hfinite, by rw [Number.valueOf, hdecode]; rfl⟩

theorem scaled_two_pow (k : ℕ) (e : ℤ) : scaled (2 ^ k) e = 2 ^ (e + k) := by
  rw [scaled, zpow_add₀ two_ne_zero, zpow_natCast, mul_comm]
  push_cast
  rfl

/-- A mantissa that is not a full one goes with the least exponent. -/
theorem valueOf_ofBits (hm : m < 2 ^ 52) : (Float.ofBits (UInt64.ofNat m)).isFinite = true ∧
    valueOf (Float.ofBits (UInt64.ofNat m)) = scaled m (-1074) := by
  have hbits : (UInt64.ofNat m).toNat = m := UInt64.toNat_ofNat_of_lt' (by rw [UInt64.size]; omega)
  have hfield : m / 2 ^ 52 % 2 ^ 11 = 0 := by omega
  have hlast : (UInt64.ofNat m).toNat / Nat.pow 2 52 % Nat.pow 2 11 ≠ 2047 := by
    simp only [Nat.pow_eq]
    rw [hbits, hfield]
    decide
  obtain ⟨htoBits, hfinite⟩ := ofBits_finite hlast
  refine ⟨hfinite, ?_⟩
  have hdecode : decode (Float.ofBits (UInt64.ofNat m)) = ⟨m / 2 ^ 63 == 1, m, -1074⟩ := by
    unfold decode
    simp only [Nat.pow_eq, htoBits, hbits, hfield, if_true]
    rw [Nat.mod_eq_of_lt hm]
  have hpositive : m / 2 ^ 63 = 0 := by omega
  rw [valueOf, hdecode, hpositive]
  rfl

/-- Between the least exponent and the normal numbers the doubles are evenly spaced. -/
theorem exists_subnormal_above (hlo : 0 ≤ x) (hhi : x < 2 ^ (-1022 : ℤ)) :
    ∃ a : Float, a.isFinite = true ∧ x ≤ valueOf a ∧ valueOf a ≤ x + 2 ^ (-1074 : ℤ) := by
  have hunit : (0 : ℚ) < 2 ^ (-1074 : ℤ) := zpow_pos two_pos _
  have hsplit : x / 2 ^ (-1074 : ℤ) * 2 ^ (-1074 : ℤ) = x := div_mul_cancel₀ x hunit.ne'
  obtain ⟨n, hn⟩ : ∃ n, ⌈x / 2 ^ (-1074 : ℤ)⌉₊ = n := ⟨_, rfl⟩
  have hle : x / 2 ^ (-1074 : ℤ) ≤ n := hn ▸ Nat.le_ceil _
  have hlt : (n : ℚ) < x / 2 ^ (-1074 : ℤ) + 1 := hn ▸ Nat.ceil_lt_add_one (div_nonneg hlo hunit.le)
  have hceil : n ≤ 2 ^ 52 := by
    have hlast : (-1074 : ℤ) + (52 : ℕ) = -1022 := by norm_num
    have hshort : x ≤ scaled (2 ^ 52) (-1074) := by
      rw [scaled_two_pow, hlast]
      exact hhi.le
    exact hn ▸ Nat.ceil_le.mpr ((div_le_iff₀ hunit).mpr hshort)
  have hbelow : x ≤ scaled n (-1074) := hsplit.symm.trans_le (mul_le_mul_of_nonneg_right hle hunit.le)
  have habove : scaled n (-1074) ≤ x + 2 ^ (-1074 : ℤ) :=
    calc scaled n (-1074) ≤ (x / 2 ^ (-1074 : ℤ) + 1) * 2 ^ (-1074 : ℤ) := mul_le_mul_of_nonneg_right hlt.le hunit.le
      _ = x + 2 ^ (-1074 : ℤ) := by rw [add_mul, hsplit, one_mul]
  obtain ⟨a, hfinite, hvalue⟩ : ∃ a : Float, a.isFinite = true ∧ valueOf a = scaled n (-1074) := by
    rcases hceil.lt_or_eq with hlt | rfl
    · exact ⟨_, valueOf_ofBits hlt⟩
    · exact ⟨_, valueOf_encode le_rfl (by decide) le_rfl (by decide)⟩
  exact ⟨a, hfinite, hvalue ▸ hbelow, hvalue ▸ habove⟩

/-- Above every number of a normal size there is a double that is no farther away than the last of 53 bits. -/
theorem exists_normal_above (hlo : 2 ^ (-1022 : ℤ) ≤ x) (hhi : x ≤ 3 * 2 ^ (1022 : ℤ)) :
    ∃ a : Float, a.isFinite = true ∧ x ≤ valueOf a ∧ valueOf a ≤ x * (1 + 2 ^ (-52 : ℤ)) := by
  have hpos : 0 < x := (zpow_pos two_pos _).trans_le hlo
  obtain ⟨k, hk, hk'⟩ := exists_mem_Ico_zpow hpos (one_lt_two : (1 : ℚ) < 2)
  have hleast : -1022 < k + 1 := (zpow_lt_zpow_iff_right₀ one_lt_two).mp (hlo.trans_lt hk')
  obtain ⟨e, rfl⟩ : ∃ e, k = e + 52 := ⟨k - 52, by omega⟩
  have hunit : (0 : ℚ) < 2 ^ e := zpow_pos two_pos e
  have hfull : scaled (2 ^ 52) e ≤ x := (scaled_two_pow 52 e).trans_le hk
  have hshort : x < scaled (2 ^ 53) e := by
    rw [scaled_two_pow]
    exact hk'.trans_eq (by congr 1; omega)
  -- The mantissa of the double is the number in units of the last of 53 bits, rounded up.
  have hsplit : x / 2 ^ e * 2 ^ e = x := div_mul_cancel₀ x hunit.ne'
  obtain ⟨n, hn⟩ : ∃ n, ⌈x / 2 ^ e⌉₊ = n := ⟨_, rfl⟩
  have hle : x / 2 ^ e ≤ n := hn ▸ Nat.le_ceil _
  have hlt : (n : ℚ) < x / 2 ^ e + 1 := hn ▸ Nat.ceil_lt_add_one (by positivity)
  have hmantissa : 2 ^ 52 ≤ n := by exact_mod_cast ((le_div_iff₀ hunit).mpr hfull).trans hle
  have hceil : n ≤ 2 ^ 53 := hn ▸ Nat.ceil_le.mpr ((div_le_iff₀ hunit).mpr hshort.le)
  have hbelow : x ≤ scaled n e := hsplit.symm.trans_le (mul_le_mul_of_nonneg_right hle hunit.le)
  have habove : scaled n e ≤ x * (1 + 2 ^ (-52 : ℤ)) := by
    have hlast : (2 : ℚ) ^ e ≤ x * 2 ^ (-52 : ℤ) := by
      have hscale : (2 : ℚ) ^ e = 2 ^ (e + 52) * 2 ^ (-52 : ℤ) := by
        rw [← zpow_add₀ two_ne_zero, add_neg_cancel_right]
      rw [hscale]
      exact mul_le_mul_of_nonneg_right hk (zpow_nonneg zero_le_two _)
    calc scaled n e ≤ (x / 2 ^ e + 1) * 2 ^ e := mul_le_mul_of_nonneg_right hlt.le hunit.le
      _ = x + 2 ^ e := by rw [add_mul, hsplit, one_mul]
      _ ≤ x * (1 + 2 ^ (-52 : ℤ)) := by linarith
  have hcap : scaled n e < 2 ^ (1024 : ℤ) :=
    calc scaled n e ≤ x * (1 + 2 ^ (-52 : ℤ)) := habove
      _ ≤ 3 * 2 ^ (1022 : ℤ) * (1 + 2 ^ (-52 : ℤ)) := mul_le_mul_of_nonneg_right hhi (by positivity)
      _ = 2 ^ (1022 : ℤ) * (3 * (1 + 2 ^ (-52 : ℤ))) := by ring
      _ < 2 ^ (1022 : ℤ) * 2 ^ (2 : ℤ) := mul_lt_mul_of_pos_left (by norm_num) (zpow_pos two_pos _)
      _ = 2 ^ (1024 : ℤ) := (zpow_add₀ two_ne_zero _ _).symm
  have hexponent {k : ℕ} (hk : 2 ^ k ≤ n) : e + k < 1024 := by
    have hlt := (scaled_le_scaled hk e).trans_lt hcap
    rw [scaled_two_pow] at hlt
    exact (zpow_lt_zpow_iff_right₀ one_lt_two).mp hlt
  rcases hceil.lt_or_eq with hlt | rfl
  · have he := hexponent hmantissa
    obtain ⟨hfinite, hvalue⟩ := valueOf_encode hmantissa hlt (e := e) (by omega) (by omega)
    exact ⟨_, hfinite, hvalue ▸ hbelow, hvalue ▸ habove⟩
  · have he := hexponent le_rfl
    have hcarry : scaled (2 ^ 53) e = scaled (2 ^ 52) (e + 1) := by
      rw [scaled_two_pow, scaled_two_pow]
      congr 1
      omega
    obtain ⟨hfinite, hvalue⟩ := valueOf_encode le_rfl (by decide) (m := 2 ^ 52) (e := e + 1) (by omega) (by omega)
    rw [hcarry, ← hvalue] at hbelow habove
    exact ⟨_, hfinite, hbelow, habove⟩

theorem exists_double_above (hlo : 0 ≤ x) (hhi : x ≤ 3 * 2 ^ (1022 : ℤ)) : ∃ a : Float, a.isFinite = true ∧
    x ≤ valueOf a ∧ valueOf a ≤ x * (1 + 2 ^ (-52 : ℤ)) + 2 ^ (-1074 : ℤ) := by
  have hstep : (0 : ℚ) < 2 ^ (-52 : ℤ) := zpow_pos two_pos _
  have hunit : (0 : ℚ) < 2 ^ (-1074 : ℤ) := zpow_pos two_pos _
  rcases lt_or_ge x (2 ^ (-1022 : ℤ)) with hlt | hge
  · obtain ⟨a, hfinite, hbelow, habove⟩ := exists_subnormal_above hlo hlt
    have hrelative : x ≤ x * (1 + 2 ^ (-52 : ℤ)) := le_mul_of_one_le_right hlo (le_add_of_nonneg_right hstep.le)
    exact ⟨a, hfinite, hbelow, habove.trans (add_le_add_left hrelative _)⟩
  · obtain ⟨a, hfinite, hbelow, habove⟩ := exists_normal_above hge hhi
    exact ⟨a, hfinite, hbelow, habove.trans (le_add_of_nonneg_right hunit.le)⟩

theorem beq_zero (ha : a.isFinite = true) (h : valueOf a = 0) : (a == 0.0) = true := by
  rw [valueOf_eq ha] at h
  refine (beq_iff_ne_notANumber_and_eq _ _).mpr ?_
  rcases finite_cases ha with ⟨s, hs⟩ | ⟨s, m, e, hm, hs, -⟩ <;> rw [hs] at h ⊢
  · refine ⟨nofun, nofun, ?_⟩
    cases s
    · exact .inr (.inr ⟨rfl, rfl⟩)
    · exact .inl rfl
  · rw [toRat_finite] at h
    have hpos := scaled_pos hm e
    cases s <;> simp [factor, hpos.ne'] at h

theorem stands_four : Stands 4.0 (2 ^ 52) (-50) :=
  ⟨by decide, rfl⟩

theorem stands_twoHundred : Stands 200.0 (25 * 2 ^ 48) (-45) :=
  ⟨by decide, rfl⟩

end Number

instance : RoundedScalar Float ℚ where
  isFinite_of_unbounded _ h := nomatch h
  add_rounds := Number.double_add_rounds
  sub_rounds ha hb := (Number.sub_rounds ha hb).roundsTo (Number.unpack_sub _ _)
  mul_rounds := Number.double_mul_rounds
  div_rounds := Number.double_div_rounds
  isFinite_of_neg := Number.isFinite_of_neg
  isFinite_of_add := Number.isFinite_of_add
  isFinite_of_sub := Number.isFinite_of_sub
  isFinite_of_mul := Number.isFinite_of_mul
  isFinite_of_div := Number.isFinite_of_div
  value_div_infinite := Number.valueOf_div_infinite
  exists_above := Number.exists_double_above
  abs_value_lt _ := Number.abs_valueOf_lt
  isFinite_sub_neg := Number.isFinite_sub_neg
  value_sub_neg := Number.valueOf_sub_neg
  beq_zero := Number.beq_zero
  one := ⟨Number.stands_one.valueOf.1, Number.stands_one.valueOf.2.trans Number.scaled_one⟩
  four := ⟨Number.stands_four.valueOf.1, Number.stands_four.valueOf.2.trans (by norm_num [Number.scaled])⟩
  twoHundred :=
    ⟨Number.stands_twoHundred.valueOf.1, Number.stands_twoHundred.valueOf.2.trans (by norm_num [Number.scaled])⟩

end FieldPlot
