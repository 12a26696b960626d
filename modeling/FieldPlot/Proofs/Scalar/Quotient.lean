import FieldPlot.Proofs.Scalar.Lawful
import FieldPlot.Proofs.Scalar.Rounding
import FieldPlot.Proofs.Scalar.StrictOrder

/-! Quotients of positive numbers. A number divided by one above 1 is not larger than it was, divided by one
below 1 it is not smaller. Doubles have this as well: rounding does not pass the number that is divided. -/

namespace FieldPlot

class DividingScalar (α : Type) [Scalar α] : Prop extends StrictlyOrderedScalar α where
  zero_lt_one : (0.0 : α) < 1.0
  le_add {a b : α} : 0.0 < a → 0.0 < b → a ≤ a + b
  half_pos {a : α} : 1.0 ≤ a → 0.0 < a / 2.0
  div_le {a b : α} : 0.0 < a → 1.0 < b → Scalar.isUndefined (a / b) = false → a / b ≤ a
  /-- Only the largest number has no quotient. -/
  le_of_div_undefined {a b c : α} :
    0.0 < a → 1.0 < b → Scalar.isUndefined (a / b) = true → Scalar.isUndefined c = false → c ≤ a
  le_div {a b : α} : 0.0 < a → 0.0 < b → b < 1.0 → a ≤ a / b

instance {α : Type} [ExactScalar α] : DividingScalar α where
  zero_lt_one := by
    rw [Scalar.literal_zero]
    exact Scalar.literal_pos 1 (by decide)
  le_add {a b} _ hb := by
    rw [Scalar.literal_zero] at hb
    exact le_add_of_nonneg_right hb.le
  half_pos {a} ha := by
    rw [Scalar.literal_zero]
    exact div_pos ((Scalar.literal_pos 1 (by decide)).trans_le ha) (Scalar.literal_pos 1 (by decide))
  div_le ha hb _ := by
    rw [Scalar.literal_zero] at ha
    rw [Scalar.literal_one] at hb
    exact div_le_self ha.le hb.le
  le_of_div_undefined _ _ h _ := by
    rw [Scalar.isUndefined_eq_false] at h
    cases h
  le_div {a b} ha hb hlt := by
    rw [Scalar.literal_zero] at ha hb
    rw [Scalar.literal_one] at hlt
    rw [le_div_iff₀ hb]
    exact mul_le_of_le_one_right ha.le hlt.le

/-! ### Doubles -/

namespace Number

open Float.Model (UnpackedFloat)
open Float.Model.Format (binary64)
open Float.Model.UnpackedFloat

/-! #### Packing -/

theorem unpack_normal (s : Sign) {b : BitVec 11} (hfirst : b ≠ 0#11) (hlast : b ≠ -1#11) (c : BitVec 52) :
    unpack binary64 (packComponents binary64 s b c) =
      .finite s (2 ^ 52 + c.toNat) (b.toNat - 1075) (Nat.add_pos_left (by decide) _) := by
  unfold unpack
  simp only [unpackExponent_packComponents, unpackMantissa_packComponents, unpackSign_packComponents,
    Sign.ofBitVec_toBitVec]
  rw [if_neg hlast, if_neg hfirst]
  congr 1
  exact toNat_implicit c

theorem unpack_subnormal (s : Sign) {c : BitVec 52} (hpos : 0 < c.toNat) :
    unpack binary64 (packComponents binary64 s 0#11 c) = .finite s c.toNat (-1074) hpos := by
  have hlast : 0#11 ≠ -1#11 := by decide
  have hc : c ≠ 0#52 := fun h => hpos.ne' (congrArg BitVec.toNat h)
  unfold unpack
  simp only [unpackExponent_packComponents, unpackMantissa_packComponents, unpackSign_packComponents,
    Sign.ofBitVec_toBitVec]
  rw [if_neg hlast, if_pos trivial, dif_neg hc]
  rfl

theorem pack_finite (s : Sign) {m : ℕ} (hm : 0 < m) (e : ℤ) :
    pack binary64 (.finite s m e hm) =
      if 2048 ≤ (e + 1023 + 52).toNat + 1 then packedInfinity binary64 s
      else if m.log2 + 1 = 53 then
        packComponents binary64 s (BitVec.ofNat 11 (e + 1023 + 52).toNat) (BitVec.ofNat 52 m)
      else packComponents binary64 s 0#11 (BitVec.ofNat 52 m) :=
  rfl

theorem unpack_pack_normal (s : Sign) {m : ℕ} (hm : 0 < m) {e : ℤ} (h : Fits m e) (hfull : 2 ^ 52 ≤ m)
    (he : e ≤ 971) : unpack binary64 (pack binary64 (.finite s m e hm)) = .finite s m e hm := by
  have hexponent := h.exponent
  have hmantissa := h.mantissa
  have hlog : m.log2 + 1 = 53 := by
    have hle := (Nat.le_log2 hm.ne').mpr hfull
    have hlt := (Nat.log2_lt hm.ne').mpr hmantissa
    omega
  have hbiased : (BitVec.ofNat 11 (e + 1023 + 52).toNat).toNat = (e + 1075).toNat := by
    rw [BitVec.toNat_ofNat, Nat.mod_eq_of_lt (by omega)]
    omega
  have hfirst : BitVec.ofNat 11 (e + 1023 + 52).toNat ≠ 0#11 := fun h => by
    have hzero : (e + 1075).toNat = 0 := hbiased.symm.trans (congrArg BitVec.toNat h)
    omega
  have hlast : BitVec.ofNat 11 (e + 1023 + 52).toNat ≠ -1#11 := fun h => by
    have hlast : (e + 1075).toNat = 2047 := hbiased.symm.trans (congrArg BitVec.toNat h)
    omega
  rw [pack_finite, if_neg (by omega), if_pos hlog, unpack_normal s hfirst hlast]
  congr 1
  · rw [BitVec.toNat_ofNat]
    omega
  · omega

theorem unpack_pack_subnormal (s : Sign) {m : ℕ} (hm : 0 < m) (hnarrow : m < 2 ^ 52) :
    unpack binary64 (pack binary64 (.finite s m (-1074) hm)) = .finite s m (-1074) hm := by
  have hlog : m.log2 + 1 ≠ 53 := by
    have hlt := (Nat.log2_lt hm.ne').mpr hnarrow
    omega
  have hlow : (BitVec.ofNat 52 m).toNat = m := by
    rw [BitVec.toNat_ofNat, Nat.mod_eq_of_lt hnarrow]
  rw [pack_finite, if_neg (by decide), if_neg hlog, unpack_subnormal s (by rwa [hlow])]
  congr 1

/-- Packing keeps a number that is not too large, and makes the infinity of one that is. -/
theorem unpack_pack_assembled {n : ℕ} {f : ℤ} (h : Fits n f) :
    unpack binary64 (pack binary64 (assembled n f)) = if 971 < f then .infinity .positive else assembled n f := by
  have hexponent := h.exponent
  have hfull := h.full
  unfold assembled
  split
  · have hsmall : ¬971 < f := by omega
    rw [if_neg hsmall]
    rfl
  · next hn =>
    by_cases hlarge : 971 < f
    · rw [if_pos hlarge, pack_finite, if_pos (by omega)]
      rfl
    · rw [if_neg hlarge]
      by_cases hwide : 2 ^ 52 ≤ n
      · exact unpack_pack_normal .positive _ h hwide (not_lt.mp hlarge)
      · obtain rfl : f = -1074 := by omega
        exact unpack_pack_subnormal .positive _ (not_le.mp hwide)

theorem exponent_le {b : BitVec binary64.numBits} {s : Sign} {m : ℕ} {e : ℤ} {hm : 0 < m}
    (h : unpack binary64 b = .finite s m e hm) : e ≤ 971 := by
  have hexponent : (unpackExponent b).toNat < 2048 := (unpackExponent b).isLt
  have hbias : (binary64.exponentBias : ℤ) = 1023 := rfl
  have hbits : (binary64.mantissaBitsWithoutImplicit : ℤ) = 52 := rfl
  unfold unpack at h
  dsimp only at h
  split at h
  · split at h <;> cases h
  · next hlast =>
    have hlast : (unpackExponent b).toNat ≠ 2047 := fun h => hlast (BitVec.eq_of_toNat_eq h)
    split at h
    · next hzero =>
      have hzero : (unpackExponent b).toNat = 0 := by rw [hzero]; rfl
      split at h <;> cases h
      omega
    · cases h
      omega

/-! #### The number that a double stands for -/

/-- The double is the positive number with that mantissa and exponent. -/
def Stands (a : Float) (m : ℕ) (e : ℤ) : Prop :=
  ∃ hm, a.toModel.unpack = .finite .positive m e hm

variable {a b c r : Float} {m n : ℕ} {e f : ℤ} {x : ℚ}

theorem Stands.fits (h : Stands a m e) : Fits m e := by
  obtain ⟨hm, h⟩ := h
  have hcanonical := unpack_canonical a.toModel.toBits.toBitVec
  have hunpack : unpack binary64 a.toModel.toBits.toBitVec = .finite .positive m e hm := h
  rw [hunpack] at hcanonical
  exact ⟨hcanonical.1, hcanonical.2.1, hcanonical.2.2⟩

theorem Stands.le_iff (ha : Stands a m e) (hb : Stands b n f) : a ≤ b ↔ scaled m e ≤ scaled n f := by
  rw [ha.fits.scaled_le_iff hb.fits, float_le_iff, ← isLE_then_compare]
  obtain ⟨hm, ha⟩ := ha
  obtain ⟨hn, hb⟩ := hb
  rw [ha, hb]
  rfl

theorem le_of_infinite (hb : b.toModel.unpack = .infinity .positive) (ha : Scalar.isUndefined a = false) : a ≤ b := by
  rw [float_le_iff, hb]
  rcases h : a.toModel.unpack with ⟨_ | _⟩ | _ | _ | ⟨_ | _, n, f, hn⟩
  case notANumber => exact absurd h (unpack_ne_notANumber ha)
  all_goals rfl

theorem unpack_add (a b : Float) : (a + b).toModel.unpack =
    unpack binary64 (pack binary64 (add binary64 a.toModel.unpack b.toModel.unpack)) :=
  rfl

theorem unpack_div (a b : Float) : (a / b).toModel.unpack =
    unpack binary64 (pack binary64 (div binary64 a.toModel.unpack b.toModel.unpack)) :=
  rfl

/-- The double is the one that a number is rounded to, or the infinity if there is none of its size. -/
def RoundedFrom (r : Float) (x : ℚ) : Prop :=
  ∃ u, Faithful u x ∧ r.toModel.unpack = unpack binary64 (pack binary64 u)

theorem RoundedFrom.le (hr : RoundedFrom r x) (ha : Stands a m e) (h : x ≤ scaled m e) : r ≤ a := by
  obtain ⟨_, ⟨n, f, hfits, rfl, hfaithful⟩, hr⟩ := hr
  have hplace := (hfits.scaled_le_iff ha.fits).mp ((hfaithful m e ha.fits).1 h)
  obtain ⟨hm, ha⟩ := ha
  have hsize : ¬971 < f := by
    have hlargest := exponent_le ha
    omega
  rw [float_le_iff, hr, unpack_pack_assembled hfits, if_neg hsize, ha, assembled]
  split
  · rfl
  · exact (isLE_then_compare f e n m).mpr hplace

theorem RoundedFrom.ge (hr : RoundedFrom r x) (ha : Stands a m e) (h : scaled m e ≤ x) : a ≤ r := by
  obtain ⟨_, ⟨n, f, hfits, rfl, hfaithful⟩, hr⟩ := hr
  have hplace := (ha.fits.scaled_le_iff hfits).mp ((hfaithful m e ha.fits).2 h)
  have hn : n ≠ 0 := by
    have hexponent := ha.fits.exponent
    have hfull := hfits.full
    obtain ⟨hm, -⟩ := ha
    omega
  obtain ⟨hm, ha⟩ := ha
  rw [float_le_iff, hr, unpack_pack_assembled hfits, ha, assembled, dif_neg hn]
  split
  · rfl
  · exact (isLE_then_compare e f m n).mpr hplace

theorem Stands.add (ha : Stands a m e) (hb : Stands b n f) : RoundedFrom (a + b) (scaled m e + scaled n f) := by
  obtain ⟨hm, ha⟩ := ha
  obtain ⟨hn, hb⟩ := hb
  refine ⟨_, add_faithful hm hn, ?_⟩
  rw [← ha, ← hb]
  exact unpack_add a b

theorem Stands.div (ha : Stands a m e) (hb : Stands b n f) : RoundedFrom (a / b) (scaled m e / scaled n f) := by
  obtain ⟨hm, ha⟩ := ha
  obtain ⟨hn, hb⟩ := hb
  refine ⟨_, div_faithful hm hn, ?_⟩
  rw [← ha, ← hb]
  exact unpack_div a b

theorem Stands.pos (h : Stands a m e) : 0 < scaled m e := by
  obtain ⟨hm, -⟩ := h
  exact mul_pos (Nat.cast_pos.mpr hm) (zpow_pos two_pos e)

theorem stands_one : Stands 1.0 (2 ^ 52) (-52) :=
  ⟨by decide, rfl⟩

theorem stands_two : Stands 2.0 (2 ^ 52) (-51) :=
  ⟨by decide, rfl⟩

theorem stands_half : Stands 0.5 (2 ^ 52) (-53) :=
  ⟨by decide, rfl⟩

theorem scaled_one : scaled (2 ^ 52) (-52) = 1 := by
  norm_num [scaled]

theorem infinite_or_stands (h : 0.0 < a) : a.toModel.unpack = .infinity .positive ∨ ∃ m e, Stands a m e := by
  rw [lt_iff_compare] at h
  rcases ha : a.toModel.unpack with ⟨_ | _⟩ | _ | _ | ⟨_ | _, m, e, hm⟩
  case infinity.positive => exact .inl rfl
  case finite.positive => exact .inr ⟨m, e, hm, ha⟩
  all_goals
    rw [ha] at h
    cases h

theorem infinite_or_stands_of_one_le (h : 1.0 ≤ a) :
    a.toModel.unpack = .infinity .positive ∨ ∃ m e, Stands a m e ∧ 1 ≤ scaled m e := by
  have hzero : (0.0 : Float) < 1.0 := by decide +kernel
  refine (infinite_or_stands (Scalar.lt_of_lt_of_le hzero h)).imp_right ?_
  rintro ⟨m, e, ha⟩
  exact ⟨m, e, ha, scaled_one ▸ (stands_one.le_iff ha).mp h⟩

/-! #### Infinities -/

theorem unpack_pack_infinity : unpack binary64 (pack binary64 (.infinity .positive)) = .infinity .positive :=
  rfl

theorem infinite_add (ha : a.toModel.unpack = .infinity .positive) (hb : 0.0 < b) :
    (a + b).toModel.unpack = .infinity .positive := by
  have hadd : add binary64 a.toModel.unpack b.toModel.unpack = .infinity .positive := by
    rcases infinite_or_stands hb with hb | ⟨n, f, hn, hb⟩ <;> rw [ha, hb] <;> rfl
  rw [unpack_add, hadd, unpack_pack_infinity]

theorem add_infinite (ha : 0.0 < a) (hb : b.toModel.unpack = .infinity .positive) :
    (a + b).toModel.unpack = .infinity .positive := by
  have hadd : add binary64 a.toModel.unpack b.toModel.unpack = .infinity .positive := by
    rcases infinite_or_stands ha with ha | ⟨m, e, hm, ha⟩ <;> rw [ha, hb] <;> rfl
  rw [unpack_add, hadd, unpack_pack_infinity]

theorem infinite_div (ha : a.toModel.unpack = .infinity .positive) (hb : Stands b n f) :
    (a / b).toModel.unpack = .infinity .positive := by
  obtain ⟨hn, hb⟩ := hb
  have hdiv : div binary64 a.toModel.unpack b.toModel.unpack = .infinity .positive := by
    rw [ha, hb]
    rfl
  rw [unpack_div, hdiv, unpack_pack_infinity]

theorem div_infinite (ha : Stands a m e) (hb : b.toModel.unpack = .infinity .positive) :
    (a / b).toModel.unpack = .zero .positive := by
  obtain ⟨hm, ha⟩ := ha
  have hdiv : div binary64 a.toModel.unpack b.toModel.unpack = .zero .positive := by
    rw [ha, hb]
    rfl
  have hzero : unpack binary64 (pack binary64 (.zero .positive)) = .zero .positive := rfl
  rw [unpack_div, hdiv, hzero]

theorem defined_of_pos (h : 0.0 < a) : Scalar.isUndefined a = false :=
  (StrictlyOrderedScalar.defined_of_le (Scalar.le_of_lt h)).2

theorem stands_of_lt_one (hpos : 0.0 < a) (h : a < 1.0) : ∃ m e, Stands a m e ∧ scaled m e ≤ 1 := by
  have hle := Scalar.le_of_lt h
  rcases infinite_or_stands hpos with ha | ⟨m, e, ha⟩
  · rw [float_le_iff, ha] at hle
    cases hle
  · exact ⟨m, e, ha, scaled_one ▸ (ha.le_iff stands_one).mp hle⟩

theorem Stands.div_le (ha : Stands a m e) (hb : 1.0 < b) : a / b ≤ a := by
  rcases infinite_or_stands_of_one_le (Scalar.le_of_lt hb) with hb | ⟨n, f, hb, hle⟩
  · obtain ⟨hm, hunpack⟩ := ha
    rw [float_le_iff, div_infinite ⟨hm, hunpack⟩ hb, hunpack]
    rfl
  · exact (ha.div hb).le ha (div_le_self ha.pos.le hle)

end Number

instance : DividingScalar Float where
  zero_lt_one := by decide +kernel
  le_add {a b} ha hb := by
    rcases Number.infinite_or_stands ha with hinf | ⟨m, e, hm⟩
    · exact Number.le_of_infinite (Number.infinite_add hinf hb) (Number.defined_of_pos ha)
    rcases Number.infinite_or_stands hb with hinf | ⟨n, f, hn⟩
    · exact Number.le_of_infinite (Number.add_infinite ha hinf) (Number.defined_of_pos ha)
    · exact (hm.add hn).ge hm (le_add_of_nonneg_right hn.pos.le)
  half_pos {a} ha := by
    have hhalf : (0.0 : Float) < 0.5 := by decide +kernel
    refine Scalar.lt_of_lt_of_le hhalf ?_
    rcases Number.infinite_or_stands_of_one_le ha with ha | ⟨m, e, ha, hle⟩
    · exact Number.le_of_infinite (Number.infinite_div ha Number.stands_two) (Number.defined_of_pos hhalf)
    · refine (ha.div Number.stands_two).ge Number.stands_half ?_
      have hhalf : Number.scaled (2 ^ 52) (-53) = 1 / 2 := by norm_num [Number.scaled]
      have htwo : Number.scaled (2 ^ 52) (-51) = 2 := by norm_num [Number.scaled]
      rw [hhalf, htwo]
      linarith
  div_le {a b} ha hb hdefined := by
    rcases Number.infinite_or_stands ha with ha | ⟨m, e, ha⟩
    · exact Number.le_of_infinite ha hdefined
    · exact ha.div_le hb
  le_of_div_undefined {a b c} ha hb hundefined hc := by
    rcases Number.infinite_or_stands ha with ha | ⟨m, e, ha⟩
    · exact Number.le_of_infinite ha hc
    · have hdefined := (StrictlyOrderedScalar.defined_of_le (ha.div_le hb)).1
      rw [hundefined] at hdefined
      cases hdefined
  le_div {a b} ha hb hlt := by
    obtain ⟨n, f, hn, hle⟩ := Number.stands_of_lt_one hb hlt
    rcases Number.infinite_or_stands ha with hinf | ⟨m, e, hm⟩
    · exact Number.le_of_infinite (Number.infinite_div hinf hn) (Number.defined_of_pos ha)
    · exact (hm.div hn).ge hm (le_div_self hm.pos.le hn.pos hle)

end FieldPlot
