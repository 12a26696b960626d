import FieldPlot.Proofs.Scalar.Quotient

/-! The number that a finite double stands for, as it is decoded. Comparison, sign changes, the floor and rounding
agree with that number, and an integer of no more bits than a mantissa has is a double itself. -/

namespace FieldPlot.Number

open Float.Model (UnpackedFloat)
open Float.Model.Format (binary64)
open Float.Model.UnpackedFloat

/-! ### The fields of the bits -/

theorem unpackExponent_toNat (b : BitVec binary64.numBits) :
    (unpackExponent b).toNat = b.toNat / Nat.pow 2 52 % Nat.pow 2 11 := by
  rw [unpackExponent_def, BitVec.extractLsb'_toNat, Nat.shiftRight_eq_div_pow]
  rfl

theorem unpackMantissa_toNat (b : BitVec binary64.numBits) :
    (unpackMantissa b).toNat = b.toNat % Nat.pow 2 52 := by
  rw [unpackMantissa_def, BitVec.extractLsb'_toNat, Nat.shiftRight_zero]
  rfl

theorem unpackSign_toNat (b : BitVec binary64.numBits) : (unpackSign b).toNat = b.toNat / Nat.pow 2 63 := by
  have hlt : b.toNat < 2 ^ 64 := b.isLt
  have hplace : binary64.mantissaBitsWithoutImplicit + binary64.exponentBits = 63 := rfl
  rw [unpackSign_def, BitVec.extractLsb'_toNat, Nat.shiftRight_eq_div_pow, hplace]
  show b.toNat / 2 ^ 63 % 2 = b.toNat / 2 ^ 63
  omega

def isMinus : Sign → Bool
  | .negative => true
  | .positive => false

/-- What is decoded from a double that has been taken apart. -/
def fields : UnpackedFloat → Dyadic
  | .finite s m e _ => ⟨isMinus s, m, e⟩
  | .zero s => ⟨isMinus s, 0, -1074⟩
  | .infinity _ | .notANumber => ⟨false, 0, 0⟩

theorem isMinus_ofBitVec (b : BitVec 1) : isMinus (Sign.ofBitVec b) = (b.toNat == 1) := by
  rcases BitVec.eq_zero_or_eq_one b with rfl | rfl <;> rfl

/-- A mantissa has its first bit implied, unless the exponent is the lowest one. -/
def ofFields (b : BitVec binary64.numBits) : Dyadic :=
  ⟨isMinus (Sign.ofBitVec (unpackSign b)),
    if (unpackExponent b).toNat = 0 then (unpackMantissa b).toNat else (unpackMantissa b).toNat + Nat.pow 2 52,
    if (unpackExponent b).toNat = 0 then -1074 else (unpackExponent b).toNat - 1075⟩

theorem decode_eq_ofFields (x : Float) : decode x = ofFields x.toModel.toBits.toBitVec := by
  rw [ofFields, isMinus_ofBitVec, unpackExponent_toNat, unpackMantissa_toNat, unpackSign_toNat]
  rfl

theorem fields_unpack {b : BitVec binary64.numBits} (hfinite : (unpack binary64 b).isFinite = true) :
    fields (unpack binary64 b) = ofFields b := by
  have hbias : (binary64.exponentBias : ℤ) = 1023 := rfl
  have hbits : (binary64.mantissaBitsWithoutImplicit : ℤ) = 52 := rfl
  rw [ofFields]
  unfold unpack at hfinite ⊢
  dsimp only at hfinite ⊢
  by_cases hlast : unpackExponent b = -1#11
  · rw [if_pos hlast] at hfinite
    split at hfinite <;> cases hfinite
  · rw [if_neg hlast]
    by_cases hfirst : unpackExponent b = 0#11
    · have hzero : (unpackExponent b).toNat = 0 := by rw [hfirst]; rfl
      rw [if_pos hzero, if_pos hzero, if_pos hfirst]
      split
      · next hmantissa =>
        rw [hmantissa]
        rfl
      · rw [fields, hbias, hbits, hzero]
        rfl
    · have hpos : (unpackExponent b).toNat ≠ 0 := fun hzero => hfirst (BitVec.eq_of_toNat_eq hzero)
      rw [if_neg hpos, if_neg hpos, if_neg hfirst, fields, hbias, hbits, toNat_implicit, Nat.add_comm]
      rfl

theorem decode_eq {x : Float} (h : x.isFinite = true) : decode x = fields x.toModel.unpack :=
  (decode_eq_ofFields x).trans (fields_unpack h).symm

/-! ### The number and its order -/

/-- The number that a sign, a mantissa and an exponent stand for. -/
def Dyadic.toRat (d : Dyadic) : ℚ :=
  if d.negative then -scaled d.mantissa d.exponent else scaled d.mantissa d.exponent

variable {u v : UnpackedFloat} {s : Sign} {m : ℕ} {e : ℤ}

theorem scaled_zero (e : ℤ) : scaled 0 e = 0 := by
  rw [scaled, Nat.cast_zero, zero_mul]

theorem scaled_pos (hm : 0 < m) (e : ℤ) : 0 < scaled m e :=
  mul_pos (Nat.cast_pos.mpr hm) (zpow_pos two_pos e)

theorem toRat_zero (s : Sign) : (fields (.zero s)).toRat = 0 := by
  simp [fields, Dyadic.toRat, scaled_zero]

theorem toRat_positive (hm : 0 < m) : (fields (.finite .positive m e hm)).toRat = scaled m e :=
  rfl

theorem toRat_negative (hm : 0 < m) : (fields (.finite .negative m e hm)).toRat = -scaled m e :=
  rfl

theorem Canonical.fits {hm : 0 < m} (h : Canonical (.finite s m e hm)) : Fits m e :=
  ⟨h.1, h.2.1, h.2.2⟩

/-- Doubles are ordered as the numbers that they stand for. -/
theorem unpacked_le_iff_toRat (hu : u.isFinite = true) (hv : v.isFinite = true) (hcu : Canonical u)
    (hcv : Canonical v) : u.le v = true ↔ (fields u).toRat ≤ (fields v).toRat := by
  rcases u with _ | _ | s | ⟨_ | _, m, e, hm⟩ <;> rcases v with _ | _ | t | ⟨_ | _, n, f, hn⟩
  case zero.zero => exact iff_of_true rfl (by rw [toRat_zero, toRat_zero])
  case zero.finite.negative =>
    have hpos := scaled_pos hn f
    exact iff_of_false Bool.false_ne_true (by rw [toRat_zero, toRat_negative]; linarith)
  case zero.finite.positive =>
    have hpos := scaled_pos hn f
    exact iff_of_true rfl (by rw [toRat_zero, toRat_positive]; linarith)
  case finite.negative.zero =>
    have hpos := scaled_pos hm e
    exact iff_of_true rfl (by rw [toRat_zero, toRat_negative]; linarith)
  case finite.positive.zero =>
    have hpos := scaled_pos hm e
    exact iff_of_false Bool.false_ne_true (by rw [toRat_zero, toRat_positive]; linarith)
  case finite.negative.finite.positive =>
    have hneg := scaled_pos hm e
    have hpos := scaled_pos hn f
    exact iff_of_true rfl (by rw [toRat_negative, toRat_positive]; linarith)
  case finite.positive.finite.negative =>
    have hneg := scaled_pos hm e
    have hpos := scaled_pos hn f
    exact iff_of_false Bool.false_ne_true (by rw [toRat_negative, toRat_positive]; linarith)
  case finite.positive.finite.positive =>
    rw [toRat_positive, toRat_positive, hcu.fits.scaled_le_iff hcv.fits, ← isLE_then_compare]
    rfl
  case finite.negative.finite.negative =>
    rw [toRat_negative, toRat_negative, neg_le_neg_iff, hcv.fits.scaled_le_iff hcu.fits, @eq_comm ℤ f e,
      ← isGE_then_compare, ← Ordering.isLE_swap]
    rfl
  all_goals first | exact absurd hu Bool.false_ne_true | exact absurd hv Bool.false_ne_true

/-- What is between finite doubles is finite. -/
theorem unpacked_isFinite_of_between {w : UnpackedFloat} (hu : u.isFinite = true) (hw : w.isFinite = true)
    (huv : u.le v = true) (hvw : v.le w = true) : v.isFinite = true := by
  rcases v with ⟨_ | _⟩ | _ | _ | _
  case infinity.negative => rcases u with _ | _ | _ | ⟨_ | _, _, _, _⟩ <;>
    first | exact absurd hu Bool.false_ne_true | exact absurd huv Bool.false_ne_true
  case infinity.positive => rcases w with _ | _ | _ | ⟨_ | _, _, _, _⟩ <;>
    first | exact absurd hw Bool.false_ne_true | exact absurd hvw Bool.false_ne_true
  case notANumber => exact absurd rfl (ne_notANumber_of_le huv).2
  all_goals rfl

/-- The number that a finite double stands for. -/
def valueOf (x : Float) : ℚ :=
  (decode x).toRat

variable {a b : Float}

theorem valueOf_eq (h : a.isFinite = true) : valueOf a = (fields a.toModel.unpack).toRat := by
  rw [valueOf, decode_eq h]

theorem float_le_iff_valueOf (ha : a.isFinite = true) (hb : b.isFinite = true) :
    a ≤ b ↔ valueOf a ≤ valueOf b := by
  rw [valueOf_eq ha, valueOf_eq hb, float_le_iff]
  exact unpacked_le_iff_toRat ha hb (unpack_canonical _) (unpack_canonical _)

theorem finite_cases (ha : a.isFinite = true) : (∃ s, a.toModel.unpack = .zero s) ∨
    ∃ s m e hm, a.toModel.unpack = .finite s m e hm ∧ Fits m e ∧ e ≤ 971 := by
  have hfinite : a.toModel.unpack.isFinite = true := ha
  have hcanonical : Canonical a.toModel.unpack := unpack_canonical _
  rcases h : a.toModel.unpack with _ | _ | s | ⟨s, m, e, hm⟩ <;> rw [h] at hfinite hcanonical
  case zero => exact .inl ⟨s, rfl⟩
  case finite => exact .inr ⟨s, m, e, hm, rfl, hcanonical.fits, exponent_le h⟩
  all_goals cases hfinite

/-! ### Changes of the sign -/

theorem unpack_pack_finite (s : Sign) (hm : 0 < m) (h : Fits m e) (he : e ≤ 971) :
    unpack binary64 (pack binary64 (.finite s m e hm)) = .finite s m e hm := by
  by_cases hfull : 2 ^ 52 ≤ m
  · exact unpack_pack_normal s hm h hfull he
  · have hexponent := h.exponent
    have hleast := h.full
    obtain rfl : e = -1074 := by omega
    exact unpack_pack_subnormal s hm (not_le.mp hfull)

theorem unpack_pack_zero (s : Sign) : unpack binary64 (pack binary64 (.zero s)) = .zero s :=
  unpack_packedZero

theorem unpack_neg (ha : a.isFinite = true) : (-a).toModel.unpack = a.toModel.unpack.neg := by
  have hneg : (-a).toModel.unpack = unpack binary64 (pack binary64 a.toModel.unpack.neg) := rfl
  rcases finite_cases ha with ⟨s, h⟩ | ⟨s, m, e, hm, h, hfits, he⟩ <;> rw [hneg, h]
  · exact unpack_pack_zero _
  · exact unpack_pack_finite _ hm hfits he

theorem unpack_abs (ha : a.isFinite = true) : a.abs.toModel.unpack = a.toModel.unpack.abs := by
  have habs : a.abs.toModel.unpack = unpack binary64 (pack binary64 a.toModel.unpack.abs) := rfl
  rcases finite_cases ha with ⟨s, h⟩ | ⟨s, m, e, hm, h, hfits, he⟩ <;> rw [habs, h]
  · exact unpack_pack_zero _
  · exact unpack_pack_finite _ hm hfits he

theorem isFinite_neg (ha : a.isFinite = true) : (-a).isFinite = true := by
  show (-a).toModel.unpack.isFinite = true
  rcases finite_cases ha with ⟨s, h⟩ | ⟨s, m, e, hm, h, -⟩ <;> rw [unpack_neg ha, h] <;> rfl

theorem isFinite_abs (ha : a.isFinite = true) : a.abs.isFinite = true := by
  show a.abs.toModel.unpack.isFinite = true
  rcases finite_cases ha with ⟨s, h⟩ | ⟨s, m, e, hm, h, -⟩ <;> rw [unpack_abs ha, h] <;> rfl

theorem valueOf_neg (ha : a.isFinite = true) : valueOf (-a) = -valueOf a := by
  rw [valueOf_eq ha, valueOf_eq (isFinite_neg ha), unpack_neg ha]
  rcases finite_cases ha with ⟨s, h⟩ | ⟨_ | _, m, e, hm, h, -⟩ <;> rw [h]
  · exact (toRat_zero _).trans (neg_eq_zero.mpr (toRat_zero s)).symm
  · exact (neg_neg (scaled m e)).symm
  · rfl

theorem valueOf_abs (ha : a.isFinite = true) : valueOf a.abs = |valueOf a| := by
  rw [valueOf_eq ha, valueOf_eq (isFinite_abs ha), unpack_abs ha]
  rcases finite_cases ha with ⟨s, h⟩ | ⟨_ | _, m, e, hm, h, -⟩ <;> rw [h]
  · exact (toRat_zero _).trans (abs_eq_zero.mpr (toRat_zero s)).symm
  · rw [toRat_negative, abs_neg, abs_of_pos (scaled_pos hm e)]
    rfl
  · rw [toRat_positive, abs_of_pos (scaled_pos hm e)]
    rfl

/-! ### The floor and rounding -/

theorem exists_ratio (d : Dyadic) :
    ∃ num den, d.ratio = (num, den) ∧ 0 < den ∧ scaled d.mantissa d.exponent = num / den := by
  unfold Dyadic.ratio scaleTwo scaled
  by_cases he : 0 ≤ d.exponent
  · obtain ⟨k, hk⟩ := Int.eq_ofNat_of_zero_le he
    exact ⟨_, _, if_pos he, Nat.one_pos, by simp [hk, Nat.shiftLeft_eq]⟩
  · obtain ⟨k, hk⟩ : ∃ k : ℕ, d.exponent = -k := ⟨(-d.exponent).toNat, by omega⟩
    exact ⟨_, _, if_neg he, by simp [hk, Nat.shiftLeft_eq], by simp [hk, Nat.shiftLeft_eq, div_eq_mul_inv]⟩

/-- The floor of a decoded double is that of its number. -/
theorem le_floor_toRat (n : ℤ) (d : Dyadic) : n ≤ d.floor ↔ (n : ℚ) ≤ d.toRat := by
  obtain ⟨num, den, hratio, hden, hvalue⟩ := exists_ratio d
  have hpos : (0 : ℚ) < den := Nat.cast_pos.mpr hden
  rw [Dyadic.floor, Dyadic.toRat, hratio, hvalue]
  dsimp only
  split
  · rw [le_neg (a := n), le_neg (a := (n : ℚ)), div_le_iff₀ hpos, ← Int.lt_add_one_iff, Int.natCast_ediv,
      Int.ediv_lt_iff_lt_mul (Int.natCast_pos.mpr hden)]
    have hnum : ((num + den - 1 : ℕ) : ℤ) = num + den - 1 := by omega
    rw [hnum, add_mul, one_mul]
    have hcast : ((num : ℚ) ≤ -(n : ℚ) * den) ↔ ((num : ℤ) ≤ -n * den) := by exact_mod_cast Iff.rfl
    rw [hcast]
    omega
  · rw [le_div_iff₀ hpos, Int.natCast_ediv, Int.le_ediv_iff_mul_le (Int.natCast_pos.mpr hden)]
    exact_mod_cast Iff.rfl

/-- An integer that no other one is nearer to a number than; of two such integers it is the even one. -/
structure NearestTo (a : ℚ) (n : ℤ) : Prop where
  near : |(n : ℚ) - a| ≤ 1 / 2
  even : |(n : ℚ) - a| = 1 / 2 → Even n

theorem NearestTo.neg {a : ℚ} {n : ℤ} (h : NearestTo a n) : NearestTo (-a) (-n) := by
  have habs : |((-n : ℤ) : ℚ) - -a| = |(n : ℚ) - a| := by
    rw [Int.cast_neg, ← neg_sub', abs_neg]
  exact ⟨habs ▸ h.near, fun htie => (h.even (habs ▸ htie)).neg⟩

theorem NearestTo.unique {a : ℚ} {m n : ℤ} (hm : NearestTo a m) (hn : NearestTo a n) : m = n := by
  wlog hlt : m < n generalizing m n
  · rcases (not_lt.mp hlt).lt_or_eq with hgt | heq
    · exact (this hn hm hgt).symm
    · exact heq.symm
  have hstep : (m : ℚ) + 1 ≤ n := by exact_mod_cast hlt
  obtain ⟨hmlo, hmhi⟩ := abs_le.mp hm.near
  obtain ⟨hnlo, hnhi⟩ := abs_le.mp hn.near
  -- Two different integers are both half a unit away, one on each side.
  have hmtie : (m : ℚ) - a = -(1 / 2) := by linarith
  have hntie : (n : ℚ) - a = 1 / 2 := by linarith
  have hnext : n = m + 1 := by
    have : (n : ℚ) = m + 1 := by linarith
    exact_mod_cast this
  have hmeven := hm.even (by rw [hmtie, abs_neg, abs_of_pos one_half_pos])
  have hneven := hn.even (by rw [hntie, abs_of_pos one_half_pos])
  rw [hnext] at hneven
  exact absurd hneven (Int.not_even_iff_odd.mpr hmeven.add_one)

theorem even_roundDiv {num den : ℕ} (hden : 0 < den) (h : 2 * |(den * roundDiv num den : ℤ) - num| = den) :
    Even (roundDiv num den : ℤ) := by
  have hsplit : (den * (num / den : ℕ) : ℤ) + (num % den : ℕ) = num := by exact_mod_cast Nat.div_add_mod num den
  unfold roundDiv at h ⊢
  dsimp only at h ⊢
  by_cases hbelow : 2 * (num % den) < den
  · have hrest : (den * (num / den : ℕ) : ℤ) - num = -(num % den : ℕ) := by linarith
    rw [if_pos hbelow, hrest, abs_neg, Nat.abs_cast] at h
    omega
  · by_cases habove : den < 2 * (num % den)
    · have hrest : (den * (num / den + 1 : ℕ) : ℤ) - num = den - (num % den : ℕ) := by
        push_cast at hsplit ⊢
        linarith
      have hlt := Nat.mod_lt num hden
      rw [if_neg hbelow, if_pos habove, hrest, abs_of_pos (by omega)] at h
      omega
    · rw [if_neg hbelow, if_neg habove, Int.even_iff]
      omega

theorem roundDiv_nearest (num : ℕ) {den : ℕ} (hden : 0 < den) : NearestTo (num / den) (roundDiv num den) := by
  have hpos : (0 : ℚ) < den := Nat.cast_pos.mpr hden
  have hdist : |((roundDiv num den : ℤ) : ℚ) - num / den| =
      ((|(den * roundDiv num den : ℤ) - num| : ℤ) : ℚ) / den := by
    rw [Int.cast_abs, ← abs_of_pos hpos, ← abs_div, abs_of_pos hpos]
    push_cast
    field_simp
  obtain ⟨hle, hge⟩ := @roundDiv_close num den hden
  refine ⟨?_, fun htie => ?_⟩
  · have hbound : 2 * |(den * roundDiv num den : ℤ) - num| ≤ den := by
      rw [← abs_two, ← abs_mul, abs_le]
      constructor <;> omega
    have hcast : 2 * ((|(den * roundDiv num den : ℤ) - num| : ℤ) : ℚ) ≤ den := by exact_mod_cast hbound
    rw [hdist, div_le_iff₀ hpos]
    linarith
  · rw [hdist, div_eq_iff hpos.ne'] at htie
    have hcast : 2 * ((|(den * roundDiv num den : ℤ) - num| : ℤ) : ℚ) = den := by linarith
    exact even_roundDiv hden (by exact_mod_cast hcast)

/-- A decoded double is rounded as the number that it stands for. -/
theorem roundAt_nearest (places : ℕ) (d : Dyadic) : NearestTo (d.toRat * 10 ^ places) (d.roundAt places) := by
  obtain ⟨num, den, hratio, hden, hvalue⟩ := exists_ratio d
  rw [Dyadic.roundAt, Dyadic.toRat, hratio, hvalue]
  dsimp only
  have hnearest := roundDiv_nearest (num * Nat.pow 10 places) hden
  have hscaled : ((num * Nat.pow 10 places : ℕ) : ℚ) / den = num / den * 10 ^ places := by
    rw [Nat.cast_mul, Nat.pow_eq, Nat.cast_pow, Nat.cast_ofNat, mul_div_right_comm]
  rw [hscaled] at hnearest
  split
  · rw [neg_mul]
    exact hnearest.neg
  · exact hnearest

/-! ### Integers -/

theorem exponent_ne_last {b : BitVec binary64.numBits} (h : b.toNat / Nat.pow 2 52 % Nat.pow 2 11 ≠ 2047) :
    unpackExponent b ≠ -1#11 := by
  intro hlast
  have hfield := unpackExponent_toNat b
  rw [hlast] at hfield
  exact h hfield.symm

/-- Bits that are not those of an infinity or NaN are kept, and are finite. -/
theorem ofBits_finite {bits : UInt64} (h : bits.toNat / Nat.pow 2 52 % Nat.pow 2 11 ≠ 2047) :
    (Float.ofBits bits).toBits = bits ∧ (Float.ofBits bits).isFinite = true := by
  have hlast : @unpackExponent binary64 bits.toBitVec ≠ -1#11 := exponent_ne_last h
  have hpack : (Float.ofBits bits).toModel.toBits.toBitVec =
      if @isNaNBits binary64 bits.toBitVec then packedNaN binary64 else bits.toBitVec :=
    @pack_unpack binary64 bits.toBitVec (by decide)
  have hnan : @isNaNBits binary64 bits.toBitVec = false := decide_eq_false fun h => hlast h.1
  rw [hnan, if_neg Bool.false_ne_true] at hpack
  refine ⟨UInt64.toBitVec_inj.mp hpack, ?_⟩
  show (unpack binary64 (Float.ofBits bits).toModel.toBits.toBitVec).isFinite = true
  rw [hpack]
  unfold unpack
  dsimp only
  rw [if_neg hlast]
  split
  · split <;> rfl
  · rfl

/-- A full mantissa is decoded as it was encoded. -/
theorem decode_encode (hfull : 2 ^ 52 ≤ m) (hlt : m < 2 ^ 53) (hmin : -1074 ≤ e) (hmax : e ≤ 971) :
    (encode m e).isFinite = true ∧ decode (encode m e) = ⟨false, m, e⟩ := by
  obtain ⟨k, hk⟩ : ∃ k, (e + 1074).toNat = k := ⟨_, rfl⟩
  have hsmall : ¬0x7FF * 2 ^ 52 ≤ k * 2 ^ 52 + m := by omega
  have hbits : (UInt64.ofNat (k * 2 ^ 52 + m)).toNat = k * 2 ^ 52 + m :=
    UInt64.toNat_ofNat_of_lt' (by rw [UInt64.size]; omega)
  have hencode : encode m e = Float.ofBits (UInt64.ofNat (k * 2 ^ 52 + m)) := by
    unfold encode
    simp only [Nat.pow_eq]
    rw [hk, if_neg hsmall]
  have hfield : (k * 2 ^ 52 + m) / 2 ^ 52 % 2 ^ 11 = k + 1 := by omega
  have hfraction : (k * 2 ^ 52 + m) % 2 ^ 52 = m - 2 ^ 52 := by omega
  have hpositive : (k * 2 ^ 52 + m) / 2 ^ 63 = 0 := by omega
  have hlast : (UInt64.ofNat (k * 2 ^ 52 + m)).toNat / Nat.pow 2 52 % Nat.pow 2 11 ≠ 2047 := by
    simp only [Nat.pow_eq]
    rw [hbits, hfield]
    omega
  obtain ⟨htoBits, hfinite⟩ := ofBits_finite hlast
  refine ⟨hencode ▸ hfinite, ?_⟩
  have hdecode (x : Float) : decode x = ⟨x.toBits.toNat / 2 ^ 63 == 1,
      if x.toBits.toNat / 2 ^ 52 % 2 ^ 11 = 0 then x.toBits.toNat % 2 ^ 52 else x.toBits.toNat % 2 ^ 52 + 2 ^ 52,
      if x.toBits.toNat / 2 ^ 52 % 2 ^ 11 = 0 then -1074 else (x.toBits.toNat / 2 ^ 52 % 2 ^ 11 : ℕ) - 1075⟩ := by
    unfold decode
    simp only [Nat.pow_eq]
  rw [hdecode, hencode, htoBits, hbits, hfield, hfraction, hpositive, if_neg k.succ_ne_zero, if_neg k.succ_ne_zero,
    Dyadic.mk.injEq]
  exact ⟨rfl, by omega, by omega⟩

/-- An integer with no more bits than a mantissa has is encoded as it is. -/
theorem nearest_of_small {n : ℕ} (hn : 0 < n) (hlt : n < 2 ^ 53) :
    2 ^ 52 ≤ n * 2 ^ (52 - n.log2) ∧ nearest n 1 = encode (n * 2 ^ (52 - n.log2)) (n.log2 - 52) := by
  have hlog : n.log2 ≤ 52 := Nat.le_of_lt_succ ((Nat.log2_lt hn.ne').mpr hlt)
  obtain ⟨k, hk⟩ : ∃ k, 52 - n.log2 = k := ⟨_, rfl⟩
  have hfull : 2 ^ 52 ≤ n * 2 ^ k :=
    calc 2 ^ 52 = 2 ^ n.log2 * 2 ^ k := by rw [← Nat.pow_add, ← hk, Nat.add_sub_cancel' hlog]
      _ ≤ n * 2 ^ k := Nat.mul_le_mul_right _ (Nat.log2_self_le hn.ne')
  have hguess : (n.log2 : ℤ) - Nat.log2 1 - 52 = -k := by
    have hone : Nat.log2 1 = 0 := by decide
    rw [hone]
    omega
  have hexponent : (n.log2 : ℤ) - 52 = -k := by omega
  have hscale : scaleTwo n 1 (- -(k : ℤ)) = (n * 2 ^ k, 1) := by
    rw [scaleTwo, if_pos (by omega), Nat.shiftLeft_eq, neg_neg, Int.toNat_natCast]
  have hn0 : ¬(decide (n = 0) || decide ((1 : ℕ) = 0)) = true := by simp [hn.ne']
  rw [hk]
  refine ⟨hfull, ?_⟩
  rw [nearest, if_neg hn0, hguess, hexponent]
  -- As in the general case, the width of a mantissa is hidden from the reduction of the pairs.
  obtain ⟨width, hwidth⟩ : ∃ w, Nat.pow 2 52 = w := ⟨_, rfl⟩
  have hwide : ¬n * 2 ^ k < 1 * width := by
    rw [← hwidth, one_mul]
    exact hfull.not_gt
  rw [hwidth]
  dsimp only
  rw [hscale]
  dsimp only
  rw [if_neg hwide, max_eq_left (by omega), hscale]
  dsimp only
  rw [roundDiv_one]

theorem valueOf_zero : (0.0 : Float).isFinite = true ∧ valueOf 0.0 = 0 := by
  have hfinite : (0.0 : Float).isFinite = true := by decide +kernel
  refine ⟨hfinite, ?_⟩
  rw [valueOf_eq hfinite]
  exact toRat_zero .positive

theorem Stands.valueOf (h : Stands a m e) : a.isFinite = true ∧ valueOf a = scaled m e := by
  obtain ⟨hm, h⟩ := h
  have hfinite : a.isFinite = true := by
    show a.toModel.unpack.isFinite = true
    rw [h]
    rfl
  refine ⟨hfinite, ?_⟩
  rw [valueOf_eq hfinite, h]
  rfl

theorem valueOf_nearest {n : ℕ} (hn : 0 < n) (hlt : n < 2 ^ 53) :
    (nearest n 1).isFinite = true ∧ valueOf (nearest n 1) = n := by
  have hlog : n.log2 ≤ 52 := Nat.le_of_lt_succ ((Nat.log2_lt hn.ne').mpr hlt)
  obtain ⟨hfull, hnearest⟩ := nearest_of_small hn hlt
  have hwide : n * 2 ^ (52 - n.log2) < 2 ^ 53 :=
    calc n * 2 ^ (52 - n.log2) < 2 ^ (n.log2 + 1) * 2 ^ (52 - n.log2) :=
          Nat.mul_lt_mul_of_pos_right Nat.lt_log2_self (Nat.two_pow_pos _)
      _ = 2 ^ 53 := by rw [← Nat.pow_add]; congr 1; omega
  obtain ⟨hfinite, hdecode⟩ := decode_encode hfull hwide (e := n.log2 - 52) (by omega) (by omega)
  refine ⟨hnearest ▸ hfinite, ?_⟩
  have hexponent : (n.log2 : ℤ) - 52 = -(52 - n.log2 : ℕ) := by omega
  rw [hnearest, Number.valueOf, hdecode, Dyadic.toRat, if_neg Bool.false_ne_true, scaled, hexponent]
  push_cast
  rw [mul_assoc, zpow_neg, zpow_natCast, mul_inv_cancel₀ (by positivity), mul_one]

theorem valueOf_ofInteger {n : ℤ} (hn : n.natAbs < 2 ^ 53) :
    (ofInteger n).isFinite = true ∧ valueOf (ofInteger n) = n := by
  rcases eq_or_ne n 0 with rfl | hne
  · exact ⟨valueOf_zero.1, by rw [Int.cast_zero]; exact valueOf_zero.2⟩
  obtain ⟨hfinite, hvalue⟩ := valueOf_nearest (Int.natAbs_pos.mpr hne) hn
  by_cases hneg : n < 0
  · rw [ofInteger, decide_eq_true hneg, withSign, if_pos rfl]
    refine ⟨isFinite_neg hfinite, ?_⟩
    rw [valueOf_neg hfinite, hvalue, Nat.cast_natAbs, abs_of_neg hneg, Int.cast_neg, neg_neg]
  · rw [ofInteger, decide_eq_false hneg, withSign, if_neg Bool.false_ne_true]
    refine ⟨hfinite, ?_⟩
    rw [hvalue, Nat.cast_natAbs, abs_of_nonneg (not_lt.mp hneg)]

theorem valueOf_eq_of_beq (ha : a.isFinite = true) (hb : b.isFinite = true) (h : (a == b) = true) :
    valueOf a = valueOf b := by
  rw [valueOf_eq ha, valueOf_eq hb]
  obtain ⟨-, -, h | ⟨hzero, hzero'⟩ | ⟨hzero, hzero'⟩⟩ := (beq_iff_ne_notANumber_and_eq _ _).mp h
  · rw [h]
  all_goals rw [hzero, hzero', toRat_zero, toRat_zero]

end FieldPlot.Number
