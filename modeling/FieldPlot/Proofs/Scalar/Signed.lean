import FieldPlot.Proofs.Scalar.Decoded

/-! Rounding with a sign. What the field operations make of finite doubles is the exact result, rounded on the side of
its sign, and a finite result has come from finite doubles. -/

namespace FieldPlot.Number

open Float.Model (UnpackedFloat)
open Float.Model.Format (binary64)
open Float.Model.UnpackedFloat

variable {u v : UnpackedFloat} {s t : Sign} {m n : ℕ} {e f : ℤ} {x : ℚ}

/-! ### Signs -/

def signed : Sign → UnpackedFloat → UnpackedFloat
  | .positive, u => u
  | .negative, u => u.neg

def factor : Sign → ℚ
  | .positive => 1
  | .negative => -1

theorem factor_mul : ∀ s t : Sign, factor (s * t) = factor s * factor t
  | .positive, .positive | .positive, .negative => (one_mul _).symm
  | .negative, .positive => (mul_one (-1)).symm
  | .negative, .negative => by rw [factor, neg_mul_neg, mul_one]; rfl

theorem factor_div : ∀ s t : Sign, factor (s / t) = factor s / factor t
  | .positive, .positive | .negative, .positive => (div_one _).symm
  | .positive, .negative => by rw [factor, factor, div_neg, div_one]; rfl
  | .negative, .negative => by rw [factor, neg_div_neg_eq, div_one]; rfl

theorem cast_apply (s : Sign) (d : ℤ) : (s.apply d : ℚ) = factor s * d := by
  cases s <;> simp [Sign.apply, factor]

theorem toRat_finite (hm : 0 < m) : (fields (.finite s m e hm)).toRat = factor s * scaled m e := by
  cases s <;> simp [factor, toRat_positive, toRat_negative]

theorem signed_finite (hm : 0 < m) : signed s (.finite .positive m e hm) = .finite s m e hm := by
  cases s <;> rfl

/-! ### Rounding -/

/-- A double whose size no other double separates from that of the number, and whose sign is that of the number. -/
def Rounds (u : UnpackedFloat) (x : ℚ) : Prop :=
  ∃ s v y, Faithful v y ∧ 0 ≤ y ∧ u = signed s v ∧ x = factor s * y

theorem scaled_nonneg (m : ℕ) (e : ℤ) : 0 ≤ scaled m e :=
  mul_nonneg (Nat.cast_nonneg m) (zpow_nonneg zero_le_two e)

theorem fits_zero : Fits 0 (-1074) :=
  ⟨by decide, le_rfl, fun h => absurd h (lt_irrefl _)⟩

theorem faithful_assembled (h : Fits m e) : Faithful (assembled m e) (scaled m e) :=
  ⟨m, e, h, rfl, fun _ _ _ => ⟨id, id⟩⟩

theorem rounds_zero (s : Sign) : Rounds (.zero s) 0 := by
  refine ⟨s, _, _, faithful_assembled fits_zero, scaled_nonneg _ _, ?_, by rw [scaled_zero, mul_zero]⟩
  cases s <;> rfl

theorem rounds_finite (hm : 0 < m) (h : Fits m e) : Rounds (.finite s m e hm) (factor s * scaled m e) := by
  refine ⟨s, _, _, faithful_assembled h, scaled_nonneg m e, ?_, rfl⟩
  rw [assembled, dif_neg hm.ne', signed_finite]

theorem roundWithAccuracy_signed (s : Sign) (m : ℕ) (e : ℤ) (accuracy : Accuracy) :
    roundWithAccuracy binary64 s m e accuracy = signed s (roundWithAccuracy binary64 .positive m e accuracy) := by
  cases s with
  | positive => rfl
  | negative =>
    unfold roundWithAccuracy
    dsimp only
    split <;> rfl

theorem round_signed (s : Sign) (m : ℕ) (e : ℤ) :
    round binary64 s m e = signed s (round binary64 .positive m e) :=
  roundWithAccuracy_signed s _ _ _

theorem normalize_rounds (d e : ℤ) : Rounds (UnpackedFloat.normalize binary64 d e .positive) (d * 2 ^ e) := by
  unfold UnpackedFloat.normalize
  rcases lt_trichotomy d 0 with hneg | rfl | hpos
  · rw [Int.compare_eq_lt.mpr hneg]
    refine ⟨.negative, _, _, round_faithful (m := (-d).toNat) (by omega) e, scaled_nonneg _ _,
      round_signed .negative _ e, ?_⟩
    have hcast : (((-d).toNat : ℕ) : ℚ) = -d := by exact_mod_cast Int.toNat_of_nonneg (by omega : 0 ≤ -d)
    rw [scaled, hcast, factor]
    ring
  · rw [Int.cast_zero, zero_mul]
    exact rounds_zero .positive
  · rw [Int.compare_eq_gt.mpr hpos]
    refine ⟨.positive, _, _, round_faithful (m := d.toNat) (by omega) e, scaled_nonneg _ _, rfl, ?_⟩
    have hcast : ((d.toNat : ℕ) : ℚ) = d := by exact_mod_cast Int.toNat_of_nonneg hpos.le
    rw [scaled, hcast, factor, one_mul]

/-! ### The field operations -/

theorem add_rounds (hu : u.isFinite = true) (hv : v.isFinite = true) (hcu : Canonical u) (hcv : Canonical v) :
    Rounds (add binary64 u v) ((fields u).toRat + (fields v).toRat) := by
  rcases u with _ | _ | s | ⟨s, m, e, hm⟩ <;> rcases v with _ | _ | t | ⟨t, n, f, hn⟩
  case zero.zero =>
    rw [toRat_zero, toRat_zero, add_zero, add]
    split <;> exact rounds_zero _
  case zero.finite =>
    rw [toRat_zero, zero_add, toRat_finite]
    exact rounds_finite hn hcv.fits
  case finite.zero =>
    rw [toRat_zero, add_zero, toRat_finite]
    exact rounds_finite hm hcu.fits
  case finite.finite =>
    obtain ⟨g, hg⟩ : ∃ g, min e f = g := ⟨_, rfl⟩
    have hadd : add binary64 (.finite s m e hm) (.finite t n f hn) = UnpackedFloat.normalize binary64
        (s.apply (m * 2 ^ (e - g).toNat : ℕ) + t.apply (n * 2 ^ (f - g).toNat : ℕ)) g .positive := by
      rw [← Nat.shiftLeft_eq, ← Nat.shiftLeft_eq, ← hg]
      rfl
    have hsum : factor s * scaled m e + factor t * scaled n f =
        (s.apply (m * 2 ^ (e - g).toNat : ℕ) + t.apply (n * 2 ^ (f - g).toNat : ℕ) : ℤ) * 2 ^ g := by
      rw [scaled_eq m (by omega : g ≤ e), scaled_eq n (by omega : g ≤ f), Int.cast_add, cast_apply, cast_apply,
        Int.cast_natCast, Int.cast_natCast]
      ring
    rw [toRat_finite, toRat_finite, hadd, hsum]
    exact normalize_rounds _ g
  all_goals first | exact absurd hu Bool.false_ne_true | exact absurd hv Bool.false_ne_true

theorem apply_neg (t : Sign) (d : ℤ) : (-t).apply d = -t.apply d := by
  cases t
  · exact (neg_neg d).symm
  · rfl

theorem sub_eq_add (u v : UnpackedFloat) : sub binary64 u v = add binary64 u v.neg := by
  rcases u with _ | _ | s | ⟨s, m, e, hm⟩ <;> rcases v with _ | _ | t | ⟨t, n, f, hn⟩
  case finite.finite =>
    show UnpackedFloat.normalize binary64 (s.apply _ - t.apply _) _ _ =
      UnpackedFloat.normalize binary64 (s.apply _ + (-t).apply _) _ _
    rw [apply_neg, ← Int.sub_eq_add_neg]
  all_goals rfl

theorem mul_rounds (hu : u.isFinite = true) (hv : v.isFinite = true) (hcu : Canonical u) (hcv : Canonical v) :
    Rounds (mul binary64 u v) ((fields u).toRat * (fields v).toRat) := by
  rcases u with _ | _ | s | ⟨s, m, e, hm⟩ <;> rcases v with _ | _ | t | ⟨t, n, f, hn⟩
  case zero.zero | zero.finite =>
    rw [toRat_zero, zero_mul]
    exact rounds_zero _
  case finite.zero =>
    rw [toRat_zero, mul_zero]
    exact rounds_zero _
  case finite.finite =>
    have hproduct : scaled m e * scaled n f = (m * n : ℕ) * 2 ^ (e + f) := by
      rw [scaled, scaled, zpow_add₀ two_ne_zero, Nat.cast_mul]
      ring
    -- The product has a mantissa of 53 bits, unless both factors are at the least exponent.
    have hbits : 2 ^ 52 ≤ m * n ∨ e + f ≤ -1074 := by
      have he := hcu.fits.exponent
      have hf := hcv.fits.exponent
      rcases he.eq_or_lt with rfl | he
      · rcases hf.eq_or_lt with rfl | hf
        · exact .inr (by decide)
        · exact .inl ((hcv.fits.full hf).trans (Nat.le_mul_of_pos_left n hm))
      · exact .inl ((hcu.fits.full he).trans (Nat.le_mul_of_pos_right m hn))
    have hfaithful := roundWithAccuracy_faithful (CutFrom.of_exact (m * n)) hbits
    rw [← hproduct] at hfaithful
    refine ⟨s * t, _, _, hfaithful, mul_nonneg (scaled_nonneg _ _) (scaled_nonneg _ _),
      roundWithAccuracy_signed _ _ _ _, ?_⟩
    rw [toRat_finite, toRat_finite, factor_mul]
    ring
  all_goals first | exact absurd hu Bool.false_ne_true | exact absurd hv Bool.false_ne_true

theorem div_signed (hm : 0 < m) (hn : 0 < n) : div binary64 (.finite s m e hm) (.finite t n f hn) =
    signed (s / t) (div binary64 (.finite .positive m e hm) (.finite .positive n f hn)) :=
  roundWithAccuracy_signed _ _ _ _

theorem div_rounds (hu : u.isFinite = true) (hv : v.isFinite = true) (hne : (fields v).toRat ≠ 0) :
    Rounds (div binary64 u v) ((fields u).toRat / (fields v).toRat) := by
  rcases v with _ | _ | t | ⟨t, n, f, hn⟩
  case zero => exact absurd (toRat_zero t) hne
  case finite =>
    rcases u with _ | _ | s | ⟨s, m, e, hm⟩
    case zero =>
      rw [toRat_zero, zero_div]
      exact rounds_zero _
    case finite =>
      refine ⟨s / t, _, _, div_faithful hm hn, div_nonneg (scaled_nonneg _ _) (scaled_nonneg _ _),
        div_signed hm hn, ?_⟩
      rw [toRat_finite, toRat_finite, factor_div, mul_div_mul_comm]
    all_goals exact absurd hu Bool.false_ne_true
  all_goals exact absurd hv Bool.false_ne_true

/-! ### Packing -/

theorem unpack_pack_signed (s : Sign) (h : Fits n f) : unpack binary64 (pack binary64 (signed s (assembled n f))) =
    if 971 < f then .infinity s else signed s (assembled n f) := by
  have hfull := h.full
  unfold assembled
  split
  · rw [if_neg (by omega)]
    cases s <;> rfl
  · next hn =>
    rw [signed_finite]
    split
    · next hlarge =>
      rw [pack_finite, if_pos (by omega)]
      cases s <;> rfl
    · next hsmall => exact unpack_pack_finite s _ h (not_lt.mp hsmall)

theorem toRat_signed (s : Sign) (n : ℕ) (f : ℤ) :
    (signed s (assembled n f)).isFinite = true ∧ (fields (signed s (assembled n f))).toRat = factor s * scaled n f := by
  unfold assembled
  split
  · next hn =>
    subst hn
    have hzero : signed s (.zero .positive) = .zero s := by cases s <;> rfl
    rw [hzero, toRat_zero, scaled_zero, mul_zero]
    exact ⟨rfl, rfl⟩
  · next hn =>
    rw [signed_finite, toRat_finite]
    exact ⟨rfl, rfl⟩

variable {a b r : Float}

theorem Fits.exponent_le_of_scaled_le (hm : Fits m e) (hn : Fits n f) (h : scaled m e ≤ scaled n f) : e ≤ f :=
  ((hm.scaled_le_iff hn).mp h).elim le_of_lt fun h => h.1.le

/-- What a number is rounded to has its sign and the mantissa and the exponent of a double that no other one separates
from it. It is infinite if the exponent is too large. -/
theorem Rounds.cases (h : Rounds u x) (hr : r.toModel.unpack = unpack binary64 (pack binary64 u)) :
    ∃ s y n f, 0 ≤ y ∧ x = factor s * y ∧ Fits n f ∧ (r.isFinite = true ↔ f ≤ 971) ∧
      (r.isFinite = true → valueOf r = factor s * scaled n f) ∧ ∀ k g, Fits k g →
        (y ≤ scaled k g → scaled n f ≤ scaled k g) ∧ (scaled k g ≤ y → scaled k g ≤ scaled n f) := by
  obtain ⟨s, _, y, ⟨n, f, hfits, rfl, hfaithful⟩, hy, rfl, hx⟩ := h
  rw [unpack_pack_signed s hfits] at hr
  obtain ⟨hfinite, hvalue⟩ := toRat_signed s n f
  refine ⟨s, y, n, f, hy, hx, hfits, ?_, fun h => ?_, hfaithful⟩
  · show r.toModel.unpack.isFinite = true ↔ f ≤ 971
    rw [hr]
    split
    · next hlarge => exact iff_of_false Bool.false_ne_true (not_le.mpr hlarge)
    · next hsmall => exact iff_of_true hfinite (not_lt.mp hsmall)
  · have hunpacked : r.toModel.unpack.isFinite = true := h
    rw [valueOf_eq h, hr]
    rw [hr] at hunpacked
    split at hunpacked
    · cases hunpacked
    · next hsmall => rw [if_neg hsmall, hvalue]

/-- A number that has the mantissa and the exponent of a double is not changed by rounding. -/
theorem Rounds.exact (h : Rounds u x) (hr : r.toModel.unpack = unpack binary64 (pack binary64 u)) (hfits : Fits m e)
    (hx : |x| = scaled m e) : (r.isFinite = true ↔ e ≤ 971) ∧ (r.isFinite = true → valueOf r = x) := by
  obtain ⟨s, y, n, f, hy, rfl, hnf, hfinite, hvalue, hfaithful⟩ := h.cases hr
  have hy : y = scaled m e := by
    rw [← hx, abs_mul, abs_of_nonneg hy]
    cases s <;> simp [factor]
  obtain ⟨hle, hge⟩ := hfaithful m e hfits
  have hle := hle hy.le
  have hge := hge hy.ge
  have hexponent : f = e :=
    le_antisymm (hnf.exponent_le_of_scaled_le hfits hle) (hfits.exponent_le_of_scaled_le hnf hge)
  exact ⟨hexponent ▸ hfinite, fun h => by rw [hvalue h, hy, le_antisymm hle hge]⟩

/-! ### Results that are finite -/

theorem unpack_sub (a b : Float) : (a - b).toModel.unpack =
    unpack binary64 (pack binary64 (sub binary64 a.toModel.unpack b.toModel.unpack)) :=
  rfl

theorem unpack_mul (a b : Float) : (a * b).toModel.unpack =
    unpack binary64 (pack binary64 (mul binary64 a.toModel.unpack b.toModel.unpack)) :=
  rfl

theorem not_isFinite_infinity (s : Sign) : ¬(unpack binary64 (pack binary64 (.infinity s))).isFinite = true := by
  cases s <;> exact Bool.false_ne_true

theorem not_isFinite_notANumber : ¬(unpack binary64 (pack binary64 .notANumber)).isFinite = true :=
  Bool.false_ne_true

theorem add_finite (h : (unpack binary64 (pack binary64 (add binary64 u v))).isFinite = true) :
    u.isFinite = true ∧ v.isFinite = true := by
  rcases u with _ | _ | _ | _ <;> rcases v with _ | _ | _ | _ <;> simp only [add] at h
  case zero.zero | zero.finite | finite.zero | finite.finite => exact ⟨rfl, rfl⟩
  case infinity.infinity =>
    split at h
    · exact absurd h (not_isFinite_infinity _)
    · exact absurd h not_isFinite_notANumber
  case infinity.zero | infinity.finite | zero.infinity | finite.infinity =>
    exact absurd h (not_isFinite_infinity _)
  all_goals exact absurd h not_isFinite_notANumber

theorem mul_finite (h : (unpack binary64 (pack binary64 (mul binary64 u v))).isFinite = true) :
    u.isFinite = true ∧ v.isFinite = true := by
  rcases u with _ | _ | _ | _ <;> rcases v with _ | _ | _ | _ <;> simp only [mul] at h
  case zero.zero | zero.finite | finite.zero | finite.finite => exact ⟨rfl, rfl⟩
  case infinity.infinity | infinity.finite | finite.infinity => exact absurd h (not_isFinite_infinity _)
  all_goals exact absurd h not_isFinite_notANumber

theorem div_finite (h : (unpack binary64 (pack binary64 (div binary64 u v))).isFinite = true) :
    u.isFinite = true := by
  rcases u with _ | _ | _ | _
  case zero | finite => rfl
  all_goals rcases v with _ | _ | _ | _ <;> simp only [div] at h
  case infinity.zero | infinity.finite => exact absurd h (not_isFinite_infinity _)
  all_goals exact absurd h not_isFinite_notANumber

theorem isFinite_of_neg (h : (-a).isFinite = true) : a.isFinite = true := by
  have hneg : (unpack binary64 (pack binary64 a.toModel.unpack.neg)).isFinite = true := h
  show a.toModel.unpack.isFinite = true
  rcases hunpack : a.toModel.unpack with _ | _ | _ | _ <;> rw [hunpack] at hneg
  case infinity => exact absurd hneg (not_isFinite_infinity _)
  case notANumber => exact absurd hneg not_isFinite_notANumber
  all_goals rfl

theorem isFinite_of_add (h : (a + b).isFinite = true) : a.isFinite = true ∧ b.isFinite = true :=
  add_finite h

theorem isFinite_of_sub (h : (a - b).isFinite = true) : a.isFinite = true ∧ b.isFinite = true := by
  have hsub : (unpack binary64 (pack binary64 (sub binary64 a.toModel.unpack b.toModel.unpack))).isFinite = true := h
  rw [sub_eq_add] at hsub
  obtain ⟨ha, hb⟩ := add_finite hsub
  refine ⟨ha, ?_⟩
  show b.toModel.unpack.isFinite = true
  rcases hunpack : b.toModel.unpack with _ | _ | _ | _ <;> rw [hunpack] at hb <;> exact hb

theorem isFinite_of_mul (h : (a * b).isFinite = true) : a.isFinite = true ∧ b.isFinite = true :=
  mul_finite h

theorem isFinite_of_div (h : (a / b).isFinite = true) : a.isFinite = true :=
  div_finite h

/-- Divided by an infinity, a number vanishes. -/
theorem valueOf_div_infinite (ha : a.isFinite = true) (hb : b.isFinite = false) (h : (a / b).isFinite = true) :
    valueOf (a / b) = 0 := by
  have hdiv : (unpack binary64 (pack binary64 (div binary64 a.toModel.unpack b.toModel.unpack))).isFinite = true := h
  have hb : b.toModel.unpack.isFinite = false := hb
  rw [valueOf_eq h, unpack_div]
  rcases hunpack : b.toModel.unpack with t | _ | _ | _ <;> rw [hunpack] at hb hdiv
  case infinity =>
    rcases finite_cases ha with ⟨s, hs⟩ | ⟨s, m, e, hm, hs, -⟩ <;> rw [hs, div, unpack_pack_zero, toRat_zero]
  case notANumber =>
    have hnan : div binary64 a.toModel.unpack .notANumber = .notANumber := by
      rcases a.toModel.unpack with _ | _ | _ | _ <;> rfl
    rw [hnan] at hdiv
    exact absurd hdiv not_isFinite_notANumber
  all_goals cases hb

end FieldPlot.Number
