import FieldPlot.Proofs.Scalar.Exact
import FieldPlot.Scalar.Double

/-! Numbers whose difference is zero lie alike: nothing is between them. This is so among doubles, as the
difference of two of them is a multiple of the least positive one, which rounding does not take to zero. -/

namespace FieldPlot

class ResolvingScalar (α : Type) [Scalar α] : Prop where
  alike_of_sub_eq_zero {a b : α} (h : (b - a == 0.0) = true) (c : α) : (a < c ↔ b < c) ∧ (c < a ↔ c < b)

instance {α : Type} [ExactScalar α] : ResolvingScalar α where
  alike_of_sub_eq_zero {a b} h c := by
    rw [ExactScalar.beq_eq, Scalar.literal_zero, decide_eq_true_iff] at h
    obtain rfl : b = a := sub_eq_zero.mp h
    exact ⟨Iff.rfl, Iff.rfl⟩

/-- Numbers on two sides of a level have a difference to divide by, be one of them without an order. -/
class SeparatingScalar (α : Type) [Scalar α] : Prop where
  le_iff_of_sub_eq_zero {a b : α} (h : (b - a == 0.0) = true) (c : α) : c ≤ a ↔ c ≤ b

instance {α : Type} [ExactScalar α] : SeparatingScalar α where
  le_iff_of_sub_eq_zero {a b} h c := by
    rw [ExactScalar.beq_eq, Scalar.literal_zero, decide_eq_true_iff] at h
    rw [sub_eq_zero.mp h]

/-! ### Doubles -/

namespace Number

open Float.Model (UnpackedFloat totalExponent)
open Float.Model.Format (binary64)
open Float.Model.UnpackedFloat

/-- As the bits of a double have it: the mantissa is a full one, or the exponent is the least. -/
def Canonical : UnpackedFloat → Prop
  | finite _ m e _ => m < 2 ^ 53 ∧ -1074 ≤ e ∧ (-1074 < e → 2 ^ 52 ≤ m)
  | _ => True

theorem toNat_implicit (m : BitVec 52) : (1#1 ++ m).toNat = 2 ^ 52 + m.toNat := by
  rw [BitVec.toNat_append, ← Nat.shiftLeft_add_eq_or_of_lt m.isLt]
  rfl

theorem unpack_canonical (b : BitVec binary64.numBits) : Canonical (unpack binary64 b) := by
  have hmantissa : (unpackMantissa b).toNat < 2 ^ 52 := (unpackMantissa b).isLt
  have hbias : (binary64.exponentBias : ℤ) = 1023 := rfl
  have hbits : (binary64.mantissaBitsWithoutImplicit : ℤ) = 52 := rfl
  unfold unpack
  dsimp only
  split
  · split <;> trivial
  · split
    · next hexponent =>
      have hzero : ((unpackExponent b).toNat : ℤ) = 0 := by rw [hexponent]; rfl
      split
      · trivial
      · exact ⟨by omega, by omega, fun h => absurd h (by omega)⟩
    · next hexponent =>
      have hpos : 0 < (unpackExponent b).toNat :=
        Nat.pos_of_ne_zero fun h => hexponent (BitVec.eq_of_toNat_eq h)
      have hfull : (1#1 ++ unpackMantissa b).toNat = 2 ^ 52 + (unpackMantissa b).toNat := toNat_implicit _
      exact ⟨by omega, by omega, fun _ => by omega⟩

/-- Of two numbers that are equal, the one with a full mantissa has the larger exponent. -/
theorem exponent_le_of_eq {m n : ℕ} {e f : ℤ} (hm : m < 2 ^ 53) (hn : -1074 < f → 2 ^ 52 ≤ n) (he : -1074 ≤ e)
    (h : m <<< (e - min e f).toNat = n <<< (f - min e f).toNat) : f ≤ e := by
  by_contra hlt
  have hzero : (e - min e f).toNat = 0 := by omega
  obtain ⟨k, hk⟩ : ∃ k, (f - min e f).toNat = k + 1 := ⟨(f - e).toNat - 1, by omega⟩
  rw [hzero, hk, Nat.shiftLeft_zero, Nat.shiftLeft_eq, Nat.pow_succ'] at h
  have hpow := Nat.one_le_two_pow (n := k)
  have hfull : 2 ^ 52 * (2 * 1) ≤ n * (2 * 2 ^ k) :=
    Nat.mul_le_mul (hn (by omega)) (Nat.mul_le_mul_left 2 hpow)
  omega

/-! ### Rounding -/

theorem mantissa_shiftRight (k : ℕ) (m : ExtendedMantissa) : (m >>> k).mantissa = m.mantissa / 2 ^ k := by
  induction k with
  | zero => exact (Nat.div_one _).symm
  | succ k ih =>
    have hstep : (m >>> (k + 1)).mantissa = (m >>> k).mantissa / 2 := rfl
    rw [hstep, ih, Nat.div_div_eq_div_mul, Nat.pow_succ]

theorem le_roundedMantissa (m : ExtendedMantissa) : m.mantissa ≤ m.roundedMantissa := by
  obtain ⟨m, _ | _, _ | _⟩ := m
  · exact le_rfl
  · exact le_rfl
  · exact Nat.le_add_right m _
  · exact Nat.le_succ m

/-- The shift to the target exponent leaves a mantissa of 53 bits at most, and not nothing of it. -/
theorem shiftToTargetExponent_bounds {m : ℕ} (hm : 0 < m) {e : ℤ} (he : -1074 ≤ e) :
    0 < (shiftToTargetExponent binary64 m e .exact).1.mantissa ∧
      (shiftToTargetExponent binary64 m e .exact).1.mantissa < 2 ^ 53 ∧
      -1074 ≤ (shiftToTargetExponent binary64 m e .exact).2 := by
  have hle := Nat.log2_self_le hm.ne'
  have hlt := Nat.lt_log2_self (n := m)
  have htarget : binary64.targetExponent (totalExponent m e) = max (m.log2 + 1 + e - 53) (-1074) := rfl
  unfold shiftToTargetExponent shiftToExponent
  dsimp only
  rw [mantissa_shiftRight, htarget]
  have hshift : (max ((m.log2 : ℤ) + 1 + e - 53) (-1074) - e).toNat = m.log2 - 52 := by omega
  rw [hshift]
  refine ⟨Nat.div_pos ?_ (Nat.two_pow_pos _), (Nat.div_lt_iff_lt_mul (Nat.two_pow_pos _)).mpr ?_, by omega⟩
  · exact (Nat.pow_le_pow_right Nat.two_pos (Nat.sub_le _ _)).trans hle
  · rw [← Nat.pow_add]
    exact hlt.trans_le (Nat.pow_le_pow_right Nat.two_pos (by omega))

/-- A number of at least the least positive size is rounded to one that has a mantissa. -/
theorem round_eq_finite (s : Sign) {m : ℕ} (hm : 0 < m) {e : ℤ} (he : -1074 ≤ e) :
    ∃ n f hn, round binary64 s m e = finite s n f hn ∧ n < 2 ^ 53 ∧ -1074 ≤ f := by
  -- The mantissa is widened to the target exponent or cut to it, rounded, and cut again if it has grown.
  obtain ⟨wide, f, hwide, hf, hround⟩ : ∃ wide f, 0 < wide ∧ -1074 ≤ f ∧
      round binary64 s m e = roundWithAccuracy binary64 s wide f .exact := by
    have htarget : binary64.targetExponent (totalExponent m e) = max (m.log2 + 1 + e - 53) (-1074) := rfl
    refine ⟨_, _, ?_, ?_, rfl⟩
    · rw [Nat.shiftLeft_eq]
      exact Nat.mul_pos hm (Nat.two_pow_pos _)
    · rw [htarget]
      omega
  rw [hround]
  unfold roundWithAccuracy
  dsimp only
  obtain ⟨hcut, -, hg⟩ := shiftToTargetExponent_bounds hwide hf
  obtain ⟨hpos, hlt, hexponent⟩ := shiftToTargetExponent_bounds (hcut.trans_le (le_roundedMantissa _)) hg
  rw [dif_neg hpos.ne']
  exact ⟨_, _, hpos, rfl, hlt, hexponent⟩

theorem ofNat_ne_zero {w n : ℕ} (hn : 0 < n) (hlt : n < 2 ^ w) : BitVec.ofNat w n ≠ 0#w := by
  intro h
  have hmod := congrArg BitVec.toNat h
  rw [BitVec.toNat_ofNat, Nat.mod_eq_of_lt hlt, BitVec.toNat_ofNat, Nat.zero_mod] at hmod
  exact hn.ne' hmod

theorem pack_finite_ne_zero (s t : Sign) {m : ℕ} (hm : 0 < m) (hlt : m < 2 ^ 53) {e : ℤ} (he : -1074 ≤ e) :
    pack binary64 (finite s m e hm) ≠ packedZero binary64 t := by
  intro h
  have hexponent := congrArg unpackExponent h
  have hmantissa := congrArg unpackMantissa h
  unfold pack packedZero at hexponent hmantissa
  dsimp only at hexponent hmantissa
  split at hexponent
  · simp only [packedInfinity, unpackExponent_packComponents] at hexponent
    exact absurd hexponent (by decide)
  · next hsmall =>
    rw [if_neg hsmall] at hmantissa
    split at hexponent
    · have hbias : (binary64.exponentBias : ℤ) = 1023 := rfl
      simp only [unpackExponent_packComponents] at hexponent
      exact ofNat_ne_zero (by omega) (by omega) hexponent
    · next hbits =>
      rw [if_neg hbits] at hmantissa
      simp only [unpackMantissa_packComponents] at hmantissa
      have hlog : m.log2 < 53 := (Nat.log2_lt hm.ne').mpr hlt
      have hshort : m.log2 + 1 ≠ 53 := hbits
      exact ofNat_ne_zero hm ((Nat.log2_lt hm.ne').mp (by omega)) hmantissa

theorem pack_normalize_ne_zero {d e : ℤ} (hd : d ≠ 0) (he : -1074 ≤ e) (s t : Sign) :
    pack binary64 (UnpackedFloat.normalize binary64 d e s) ≠ packedZero binary64 t := by
  unfold UnpackedFloat.normalize
  rcases lt_trichotomy d 0 with hneg | rfl | hpos
  · rw [Int.compare_eq_lt.mpr hneg]
    obtain ⟨n, f, hn, hround, hlt, hf⟩ := round_eq_finite .negative (m := (-d).toNat) (by omega) he
    exact hround ▸ pack_finite_ne_zero _ _ hn hlt hf
  · exact absurd rfl hd
  · rw [Int.compare_eq_gt.mpr hpos]
    obtain ⟨n, f, hn, hround, hlt, hf⟩ := round_eq_finite .positive (m := d.toNat) (by omega) he
    exact hround ▸ pack_finite_ne_zero _ _ hn hlt hf

/-! ### Differences -/

theorem eq_of_sub_finite {s t u : Sign} {m n : ℕ} {e f : ℤ} {hm : 0 < m} {hn : 0 < n}
    (ha : Canonical (finite s m e hm)) (hb : Canonical (finite t n f hn))
    (h : pack binary64 (sub binary64 (finite s m e hm) (finite t n f hn)) = packedZero binary64 u) :
    finite s m e hm = finite t n f hn := by
  obtain ⟨hmlt, hme, hmfull⟩ := ha
  obtain ⟨hnlt, hnf, hnfull⟩ := hb
  have hzero : s.apply (m <<< (e - min e f).toNat : ℕ) - t.apply (n <<< (f - min e f).toNat : ℕ) = 0 := by
    by_contra hne
    exact pack_normalize_ne_zero hne (le_min hme hnf) .positive u h
  have hmpos : 0 < m <<< (e - min e f).toNat := by
    rw [Nat.shiftLeft_eq]
    exact Nat.mul_pos hm (Nat.two_pow_pos _)
  have hnpos : 0 < n <<< (f - min e f).toNat := by
    rw [Nat.shiftLeft_eq]
    exact Nat.mul_pos hn (Nat.two_pow_pos _)
  obtain ⟨rfl, heq⟩ : s = t ∧ m <<< (e - min e f).toNat = n <<< (f - min e f).toNat := by
    cases s <;> cases t <;> simp only [Sign.apply] at hzero <;> constructor <;> first | rfl | omega
  have hfe := exponent_le_of_eq hmlt hnfull hme heq
  have hef := exponent_le_of_eq hnlt hmfull hnf (min_comm e f ▸ heq.symm)
  obtain rfl : e = f := le_antisymm hef hfe
  rw [min_self, sub_self, Int.toNat_zero, Nat.shiftLeft_zero, Nat.shiftLeft_zero] at heq
  subst heq
  rfl

theorem beq_of_sub {a b : UnpackedFloat} (ha : Canonical a) (hb : Canonical b) {t : Sign}
    (h : pack binary64 (sub binary64 a b) = packedZero binary64 t) : a.beq b = true := by
  have hundefined : pack binary64 notANumber ≠ packedZero binary64 t := by cases t <;> decide
  have hinfinite (s : Sign) : pack binary64 (.infinity s) ≠ packedZero binary64 t := by
    cases s <;> cases t <;> decide
  have hfinite {s : Sign} {m : ℕ} {e : ℤ} {hm : 0 < m} (hc : Canonical (finite s m e hm)) (u : Sign) :
      pack binary64 (finite u m e hm) ≠ packedZero binary64 t :=
    pack_finite_ne_zero u t hm hc.1 hc.2.1
  rcases a with s | _ | s | ⟨s, m, e, hm⟩ <;> rcases b with u | _ | u | ⟨u, n, f, hn⟩
  case finite.finite =>
    exact (beq_iff_ne_notANumber_and_eq _ _).mpr ⟨nofun, nofun, .inl (eq_of_sub_finite ha hb h)⟩
  all_goals simp only [sub] at h
  case zero.zero => rfl
  case zero.finite => exact absurd h (hfinite hb _)
  case finite.zero => exact absurd h (hfinite ha _)
  case infinity.infinity =>
    split at h
    · exact absurd h (hinfinite _)
    · exact absurd h hundefined
  case infinity.zero | infinity.finite | zero.infinity | finite.infinity => exact absurd h (hinfinite _)
  all_goals exact absurd h hundefined

theorem compare_zero (s t : Sign) (c : UnpackedFloat) :
    (zero s).compare c = (zero t).compare c ∧ c.compare (zero s) = c.compare (zero t) := by
  rcases c with ⟨_ | _⟩ | _ | _ | ⟨_ | _, _, _, _⟩ <;> exact ⟨rfl, rfl⟩

theorem compare_congr {a b : UnpackedFloat} (h : a.beq b = true) (c : UnpackedFloat) :
    a.compare c = b.compare c ∧ c.compare a = c.compare b := by
  obtain ⟨-, -, rfl | ⟨rfl, rfl⟩ | ⟨rfl, rfl⟩⟩ := (beq_iff_ne_notANumber_and_eq a b).mp h
  · exact ⟨rfl, rfl⟩
  · exact compare_zero _ _ c
  · exact compare_zero _ _ c

theorem eq_packedZero_of_beq {a : Float} (h : (a == 0.0) = true) :
    ∃ t, a.toModel.toBits.toBitVec = packedZero binary64 t := by
  have hbeq : a.toModel.unpack.beq (zero .positive) = true := h
  obtain ⟨-, -, hzero | ⟨hzero, -⟩ | ⟨hzero, -⟩⟩ := (beq_iff_ne_notANumber_and_eq _ _).mp hbeq
  · exact ⟨_, (unpack_eq_zero_iff_of_valid a.toModel.valid).mp hzero⟩
  · exact ⟨_, (unpack_eq_zero_iff_of_valid a.toModel.valid).mp hzero⟩
  · exact ⟨_, (unpack_eq_zero_iff_of_valid a.toModel.valid).mp hzero⟩

theorem lt_iff_compare {a b : Float} : a < b ↔ a.toModel.unpack.compare b.toModel.unpack = some .lt :=
  decide_eq_true_iff.trans beq_iff_eq

theorem unpack_beq_of_sub {a b : Float} (h : (b - a == 0.0) = true) :
    b.toModel.unpack.beq a.toModel.unpack = true := by
  obtain ⟨t, ht⟩ := eq_packedZero_of_beq h
  exact beq_of_sub (unpack_canonical _) (unpack_canonical _) ht

end Number

instance : ResolvingScalar Float where
  alike_of_sub_eq_zero {a b} h c := by
    obtain ⟨hleft, hright⟩ := Number.compare_congr (Number.unpack_beq_of_sub h) c.toModel.unpack
    constructor
    · rw [Number.lt_iff_compare, Number.lt_iff_compare, hleft]
    · rw [Number.lt_iff_compare, Number.lt_iff_compare, hright]

instance : SeparatingScalar Float where
  le_iff_of_sub_eq_zero {a b} h c := by
    obtain ⟨-, hright⟩ := Number.compare_congr (Number.unpack_beq_of_sub h) c.toModel.unpack
    have hle (d : Float) : c ≤ d ↔ c.toModel.unpack.le d.toModel.unpack = true := decide_eq_true_iff
    rw [hle, hle, Float.Model.UnpackedFloat.le, Float.Model.UnpackedFloat.le, hright]

end FieldPlot
