import FieldPlot.Proofs.Scalar.Difference
import FieldPlot.Proofs.Scalar.Lawful

/-! Numbers that count: a positive integer is never zero among them, so a division by a number of steps does
not fail. A double is rounded from the integer; it has a mantissa as it has one before the rounding. -/

namespace FieldPlot

class CountingScalar (α : Type) [Scalar α] : Prop where
  ofInt_ne_zero {n : ℤ} : 0 < n → (Scalar.ofInt n == (0.0 : α)) = false

instance {α : Type} [LawfulScalar α] : CountingScalar α where
  ofInt_ne_zero {n} hn := by
    rw [LawfulScalar.ofInt_eq, ExactScalar.beq_eq, Scalar.literal_zero, decide_eq_false_iff_not]
    exact Int.cast_ne_zero.mpr hn.ne'

namespace Scalar

variable {α : Type} [Scalar α] {n : ℤ}

theorem divide_ofInt [CountingScalar α] (a : α) (hn : 0 < n) : divide a (ofInt n) = .ok (a / ofInt n) := by
  rw [divide, CountingScalar.ofInt_ne_zero hn]
  rfl

/-! ### Counts that every machine has room for -/

theorem ofInt?_of_lt (hn : 0 ≤ n) (hlt : 8 * n < memoryBound) : (ofInt? n : Except Fault α) = .ok (ofInt n) := by
  have hbound : memoryBound ≤ integerBound := by decide +kernel
  have hsmall : n.natAbs < memoryBound := by omega
  rw [ofInt?, decide_eq_false (hsmall.trans_le hbound).not_ge, Bool.and_false]
  rfl

theorem listLength_of_lt (hn : 0 ≤ n) (hlt : 8 * n < memoryBound) : listLength α n = .ok n.toNat := by
  have hbound : addressBound = 9223372036854775808 := by decide
  have hroom : memoryBound = 140737488355328 := by decide
  have hlong : ¬addressBound + 1024 < n.natAbs := by omega
  have hshort : n ≤ addressBound - 512 - 1 := by omega
  have haddresses : ¬(addressBound : ℤ) ≤ 8 * n := by omega
  simp [listLength, hlong, hshort, haddresses, hlt.not_ge]

/-- A list that a machine has is short against the mantissa of its numbers. -/
theorem length_lt_of_listLength {l : ℕ} (hbounded : isBounded α = true) (h : listLength α n = .ok l) :
    8 * l < memoryBound := by
  have hroom : memoryBound = 140737488355328 := by decide
  unfold listLength at h
  rw [hbounded, Bool.not_true, if_neg Bool.false_ne_true] at h
  split at h
  · cases h
  split at h
  · cases h
  split at h
  · cases h
  · next hfits =>
    obtain rfl := Except.ok.inj h
    simp only [Bool.and_eq_true, decide_eq_true_iff, not_and] at hfits
    split
    · next hshort =>
      have hlt := hfits hshort
      omega
    · omega

end Scalar

/-! ### Doubles -/

namespace Number

open Float.Model (Format)
open Float.Model.UnpackedFloat (isNaNBits packedNaN pack_unpack)

/-- Only the bits of the two zeros are read as zero. -/
theorem eq_zero_of_ofBits {bits : UInt64} (h : (Float.ofBits bits == 0.0) = true) :
    bits = 0 ∨ bits = 0x8000000000000000 := by
  obtain ⟨t, ht⟩ := eq_packedZero_of_beq h
  have hpack : (Float.ofBits bits).toModel.toBits.toBitVec =
      if @isNaNBits Format.binary64 bits.toBitVec then packedNaN Format.binary64 else bits.toBitVec :=
    @pack_unpack Format.binary64 bits.toBitVec (by decide)
  rw [ht] at hpack
  split at hpack
  · exact absurd hpack (by cases t <;> decide)
  · cases t with
    | negative => exact .inr (UInt64.toBitVec_inj.mp hpack.symm)
    | positive => exact .inl (UInt64.toBitVec_inj.mp hpack.symm)

theorem encode_ne_zero {m : ℕ} (hm : 0 < m) (e : ℤ) : (encode m e == 0.0) = false := by
  unfold encode
  dsimp only
  split
  · rfl
  · next hbits =>
    rw [Bool.eq_false_iff]
    intro hzero
    have hpos : 0 < (e + 1074).toNat * Nat.pow 2 52 + m := Nat.add_pos_right _ hm
    have hbound : 0x7FF * Nat.pow 2 52 < 0x8000000000000000 := by decide
    have hlt := (Nat.not_le.mp hbits).trans hbound
    have hnat := UInt64.toNat_ofNat_of_lt' (hlt.trans (by decide))
    rcases eq_zero_of_ofBits hzero with h | h
    · rw [h] at hnat
      exact hpos.ne hnat
    · rw [h] at hnat
      exact hlt.ne' hnat

theorem roundDiv_pos {num den : ℕ} (hden : 0 < den) (h : den ≤ num) : 0 < roundDiv num den := by
  have hq : 0 < num / den := Nat.div_pos h hden
  unfold roundDiv
  dsimp only
  split
  · exact hq
  · split <;> omega

/-- Scaled down by no more than its binary logarithm, a number stays a whole one. -/
theorem scaleTwo_le {n : ℕ} {e : ℤ} (hn : 0 < n) (he : e ≤ n.log2) :
    0 < (scaleTwo n 1 (-e)).2 ∧ (scaleTwo n 1 (-e)).2 ≤ (scaleTwo n 1 (-e)).1 := by
  unfold scaleTwo
  split
  · exact ⟨Nat.one_pos, by rw [Nat.shiftLeft_eq]; exact Nat.mul_pos hn (by positivity)⟩
  · next hneg =>
    rw [Nat.one_shiftLeft]
    refine ⟨by positivity, ?_⟩
    calc 2 ^ (- -e).toNat ≤ 2 ^ n.log2 := Nat.pow_le_pow_right Nat.two_pos (by omega)
      _ ≤ n := Nat.log2_self_le hn.ne'

/-- An integer is encoded from a rounding of itself, scaled down by no more than its binary logarithm. -/
theorem nearest_eq_encode {n : ℕ} (hn : 0 < n) : ∃ e : ℤ, e ≤ n.log2 ∧
    nearest n 1 = encode (roundDiv (scaleTwo n 1 (-e)).1 (scaleTwo n 1 (-e)).2) e := by
  have hn0 : ¬(decide (n = 0) || decide ((1 : ℕ) = 0)) = true := by simp [hn.ne']
  rw [nearest, if_neg hn0]
  -- The width of a mantissa is hidden: reducing the pairs would compute with it in unary.
  obtain ⟨width, hwidth⟩ : ∃ w, Nat.pow 2 52 = w := ⟨_, rfl⟩
  rw [hwidth]
  exact ⟨_, max_le (by split <;> omega) (by omega), rfl⟩

theorem nearest_ne_zero {n : ℕ} (hn : 0 < n) : (nearest n 1 == 0.0) = false := by
  obtain ⟨e, he, hnearest⟩ := nearest_eq_encode hn
  rw [hnearest]
  exact encode_ne_zero (roundDiv_pos (scaleTwo_le hn he).1 (scaleTwo_le hn he).2) e

end Number

instance : CountingScalar Float where
  ofInt_ne_zero {n} hn := by
    show (Number.ofInteger n == 0.0) = false
    rw [Number.ofInteger, decide_eq_false (by omega), Number.withSign, if_neg Bool.false_ne_true]
    exact Number.nearest_ne_zero (by omega)

end FieldPlot
